import OpenApi.Proofs.Document.Normalized

set_option autoImplicit false

namespace OpenApi

open Decode

theorem Decode.fields_append {α : Type} (put : α → String → Value → Result α) (start : α)
    (first rest : List (String × Value)) : fields put start (first ++ rest)
      = fields put start first >>= fun a => fields put a rest := by
  induction first generalizing start with
  | nil => rfl
  | cons field first ih =>
      rcases field with ⟨name, v⟩
      rw [List.cons_append, fields, fields, bind_assoc]
      exact bind_congr fun a => ih a

theorem Contents.decode_fields (members : List (String × Value)) :
    Contents.decode (.obj members) = fields Contents.take {} members := by
  change (fields Contents.take {} members >>= fun record => _) = _
  cases fields Contents.take {} members <;> rfl

namespace Normalize

def documentField (field : String × Value) : String × Value :=
  let changed := if field.1 = "components" then onField "schemas" flagFields field.2 else field.2
  (field.1, value (fieldPosition false field.1 changed) changed)

theorem document_fields (members : List (String × Value)) :
    document (.obj members) = .obj (members.map documentField) := by
  rw [document, on_field_eq, value, fields_eq, List.map_map]
  rfl

theorem version_field (u : Value) (plain : value .other u = u) :
    documentField ("openapi", u) = ("openapi", u) := congrArg (Prod.mk "openapi") plain

end Normalize

namespace Document

open Normalize (onField document documentField document_fields mapped_lookup on_field_eq)

-- The fields that are read before the version, normalized.
def beforeVersion (v : Value) : List (String × Value) :=
  ((document v).asObject?.getD []).takeWhile fun field => field.1 != "openapi"

def versionWritten (text : String) (v : Value) : Value := onField "openapi" (fun _ => .str text) v

theorem written_lookup (text name : String) (v : Value) : (versionWritten text v).get? name
    = (v.get? name).map fun w => if name = "openapi" then .str text else w := by
  cases v with
  | obj members =>
      rw [versionWritten, on_field_eq]
      exact mapped_lookup _ members name fun _ => rfl
  | null | bool | num | str | arr => rfl

section Number

variable (v : Value) (n : Number) (isNumber : v.get? "openapi" = some (.num n))

include isNumber

theorem written_detected :
    SpecVersion.detect (versionWritten n.text v) = SpecVersion.detect v := by
  have sameSwagger : (versionWritten n.text v).get? "swagger" = v.get? "swagger" := by
    rw [written_lookup]
    exact Option.map_id'
  rw [SpecVersion.detect, SpecVersion.detect, sameSwagger, written_lookup, isNumber]
  rfl

theorem version_split : ∃ before after, v = .obj (before ++ ("openapi", .num n) :: after)
    ∧ ∀ field ∈ before, field.1 ≠ "openapi" := by
  cases v with
  | obj members =>
      obtain ⟨before, after, rfl, free⟩ := List.lookup_eq_some_iff.mp isNumber
      refine ⟨before, after, rfl, fun field member => ?_⟩
      exact (bne_iff_ne.mp (free field member)).symm
  | null | bool | num | str | arr => cases isNumber

end Number

section Split

variable (before after : List (String × Value)) (u : Value)
  (plain : Normalize.value .other u = u)

include plain

theorem normalized_split : document (.obj (before ++ ("openapi", u) :: after))
    = .obj (before.map documentField ++ ("openapi", u) :: after.map documentField) := by
  rw [document_fields, List.map_append, List.map_cons, Normalize.version_field u plain]

theorem before_version_split (free : ∀ field ∈ before, field.1 ≠ "openapi") :
    beforeVersion (.obj (before ++ ("openapi", u) :: after)) = before.map documentField := by
  have names : ∀ field ∈ before.map documentField, (field.1 != "openapi") = true :=
    List.forall_mem_map.mpr fun field member => bne_iff_ne.mpr (free field member)
  rw [beforeVersion, normalized_split before after u plain]
  exact (List.takeWhile_append_of_pos names).trans (List.append_nil _)

theorem decode_split : Contents.decode (document (.obj (before ++ ("openapi", u) :: after))) = (do
    let first ← fields Contents.take {} (before.map documentField)
    let next ← Contents.take first "openapi" u
    fields Contents.take next (after.map documentField)) := by
  rw [normalized_split before after u plain, Contents.decode_fields, fields_append]
  rfl

end Split

section Fault

variable (v : Value) (n : Number) (isNumber : v.get? "openapi" = some (.num n))

include isNumber

theorem number_fault : Contents.decode (document v) = .error (
    match fields Contents.take {} (beforeVersion v) with
    | .error fault => fault
    | .ok _ => .invalidType (.num n) "a string") := by
  obtain ⟨before, after, rfl, free⟩ := version_split v n isNumber
  rw [before_version_split before after (.num n) rfl free, decode_split before after (.num n) rfl]
  cases fields Contents.take {} (before.map documentField) <;> rfl

theorem fault_before (text : String) (fault : Fault)
    (failed : fields Contents.take {} (beforeVersion v) = .error fault) :
    Contents.decode (document (versionWritten text v)) = .error fault := by
  obtain ⟨before, after, rfl, free⟩ := version_split v n isNumber
  rw [before_version_split before after (.num n) rfl free] at failed
  have kept : before.map (fun field =>
      (field.1, if field.1 = "openapi" then Value.str text else field.2)) = before := by
    conv_rhs => rw [← List.map_id before]
    exact List.map_congr_left fun field member => by rw [if_neg (free field member)]; rfl
  rw [versionWritten, on_field_eq, List.map_append, List.map_cons, kept, if_pos rfl,
    decode_split before _ (.str text) rfl, failed]
  rfl

end Fault

/-- A document whose version is a number is never read. It has the version line of the document with
the text of that number in its place, and is refused like that one where no such line exists or
something before the version is at fault; otherwise it is refused for not having a text there. -/
theorem version_number_unread (v : Value) (n : Number)
    (isNumber : v.get? "openapi" = some (.num n)) :
    let w := versionWritten n.text v
    (∀ d, ofValue v ≠ .ok d) ∧ SpecVersion.detect w = SpecVersion.detect v
      ∧ (∀ fault, SpecVersion.detect v = .error fault →
          ofValue v = .error (.unsupportedVersion fault) ∧ ofValue w = ofValue v)
      ∧ ∀ version, SpecVersion.detect v = .ok version →
          match fields Contents.take {} (beforeVersion v) with
          | .error fault => ofValue v = .error (.malformed fault) ∧ ofValue w = ofValue v
          | .ok _ => ofValue v = .error (.malformed (.invalidType (.num n) "a string")) := by
  intro w
  have detected := written_detected v n isNumber
  have decoded := number_fault v n isNumber
  refine ⟨?_, detected, ?_, ?_⟩
  · intro d read
    cases decoded.symm.trans (of_value_contents v d read)
  · intro fault unsupported
    rw [ofValue, ofValue, detected, unsupported]
    exact ⟨rfl, rfl⟩
  · intro version supported
    rw [ofValue, ofValue, detected, supported, decoded]
    cases failed : fields Contents.take {} (beforeVersion v) with
    | error fault =>
        rw [fault_before v n isNumber n.text fault failed]
        exact ⟨rfl, rfl⟩
    | ok first => rfl

def versioned (version : Value) : Value := .obj [
  ("openapi", version),
  ("info", .obj [("title", .str "T"), ("version", .str "1")]),
  ("paths", .obj [])]

def threePointOne : Number := .float ⟨false, 6980579422424269, -51⟩

theorem three_point_one_fault :
    (versioned (.num threePointOne)).get? "openapi" = some (.num threePointOne)
      ∧ SpecVersion.detect (versioned (.num threePointOne)) = .ok .v31
      ∧ ofValue (versioned (.num threePointOne))
        = .error (.malformed (.invalidType (.num threePointOne) "a string")) := by
  have detected : SpecVersion.detect (versioned (.num threePointOne)) = .ok .v31 := by
    rfl
  exact ⟨rfl, detected, (version_number_unread _ threePointOne rfl).2.2.2 .v31 detected⟩

theorem three_point_one_text_read :
    threePointOne.text = "3.1" ∧ (∀ d, ofValue (versioned (.num threePointOne)) ≠ .ok d)
      ∧ ∃ d, ofValue (versioned (.str "3.1")) = .ok d ∧ d.version = .v31 := by
  refine ⟨by rfl, ?_, ⟨_, rfl, rfl⟩⟩
  intro d read
  cases (number_fault _ threePointOne rfl).symm.trans (of_value_contents _ d read)

end Document

end OpenApi
