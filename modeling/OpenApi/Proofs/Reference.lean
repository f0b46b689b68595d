import OpenApi.Proofs.Component.Catalog
import OpenApi.Proofs.Text.Percent

set_option autoImplicit false

namespace OpenApi

namespace Naming

variable (separator : Char) (piece rest : List Char)

theorem split_at_last (absent : separator ∉ piece) : splitAt separator piece = [piece] := by
  induction piece with
  | nil => rfl
  | cons c piece ih =>
      rw [List.mem_cons, not_or] at absent
      rw [splitAt, if_neg fun same => absent.1 same.symm, ih absent.2]

theorem split_at_append (absent : separator ∉ piece) :
    splitAt separator (piece ++ separator :: rest) = piece :: splitAt separator rest := by
  induction piece with
  | nil => rw [List.nil_append, splitAt, if_pos rfl]
  | cons c piece ih =>
      rw [List.mem_cons, not_or] at absent
      rw [List.cons_append, splitAt, if_neg fun same => absent.1 same.symm, ih absent.2]

end Naming

namespace Reference

open Text

def escapeTildes (cs : List Char) : List Char :=
  cs.flatMap fun c => if c = '~' then ['~', '0'] else [c]

def escapeSlashes (cs : List Char) : List Char :=
  cs.flatMap fun c => if c = '/' then ['~', '1'] else [c]

def encodeSegment (hex : HexDigits) (name : String) : List Char :=
  percentEncode hex (escapeSlashes (escapeTildes name.toList))

def toComponent (hex : HexDigits) (group : Section) (name : String) : String :=
  "#/components/" ++ group.key ++ "/" ++ String.ofList (encodeSegment hex name)

theorem to_component_text (hex : HexDigits) (group : Section) (name : String) :
    (toComponent hex group name).toList = '#' :: '/' ::
      ("components".toList ++ '/' :: (group.key.toList ++ '/' :: encodeSegment hex name)) := by
  simp [toComponent]

theorem restore_slashes_cons (c : Char) (rest : List Char) (plain : c ≠ '~') :
    restoreSlashes (c :: rest) = c :: restoreSlashes rest := by
  rw [restoreSlashes]
  exact fun tail isTilde => absurd isTilde plain

theorem restore_tildes_cons (c : Char) (rest : List Char) (plain : c ≠ '~') :
    restoreTildes (c :: rest) = c :: restoreTildes rest := by
  rw [restoreTildes]
  exact fun tail isTilde => absurd isTilde plain

theorem restore_escaped_tildes (cs : List Char) : restoreTildes (escapeTildes cs) = cs := by
  induction cs with
  | nil => rfl
  | cons c rest ih =>
      rw [escapeTildes, List.flatMap_cons]
      by_cases tilde : c = '~'
      · rw [if_pos tilde, tilde]
        exact congrArg ('~' :: ·) ih
      · rw [if_neg tilde, List.singleton_append, restore_tildes_cons c _ tilde]
        exact congrArg (c :: ·) ih

-- After tildes are escaped each of them is followed by a zero, so no tilde of the name can be taken
-- for the escape of a slash.
theorem restore_escaped_slashes (cs : List Char) :
    restoreSlashes (escapeSlashes (escapeTildes cs)) = escapeTildes cs := by
  induction cs with
  | nil => rfl
  | cons c rest ih =>
      rw [escapeTildes, List.flatMap_cons, escapeSlashes, List.flatMap_append]
      by_cases tilde : c = '~'
      · rw [if_pos tilde]
        exact congrArg (['~', '0'] ++ ·) ih
      · rw [if_neg tilde, List.flatMap_singleton]
        by_cases slash : c = '/'
        · rw [if_pos slash, slash]
          exact congrArg ('/' :: ·) ih
        · rw [if_neg slash, List.singleton_append, List.singleton_append,
            restore_slashes_cons c _ tilde]
          exact congrArg (c :: ·) ih

theorem decode_encode_segment (hex : HexDigits) (name : String) :
    decodeSegment (encodeSegment hex name) = name := by
  rw [decodeSegment, encodeSegment, percent_decode_encode, restore_escaped_slashes,
    restore_escaped_tildes, String.ofList_toList]

theorem key_injective (group wanted : Section) : group.key.toList = wanted.key.toList ↔
    wanted = group := by
  cases group <;> cases wanted <;> decide

theorem segments_to_component (hex : HexDigits) (group : Section) (name : String) :
    pointerSegments (toComponent hex group name)
      = ["components".toList, group.key.toList, encodeSegment hex name] := by
  have noSlash : '/' ∉ group.key.toList := by cases group <;> decide
  rw [pointerSegments, to_component_text]
  change Naming.splitAt '/' ("components".toList ++ _) = _
  rw [Naming.split_at_append _ _ _ (by decide), Naming.split_at_append _ _ _ noSlash,
    encodeSegment, Naming.split_at_last _ _ (percent_encode_no_slash hex _)]

theorem component_name_read (hex : HexDigits) (group wanted : Section) (name : String)
    (present : name ≠ "") : componentName? wanted (toComponent hex group name)
      = if wanted = group then some name else none := by
  have isLocal : isExternal (toComponent hex group name) = false := by
    rw [isExternal, to_component_text]
    rfl
  rw [componentName?, isLocal, segments_to_component]
  simp only [decode_encode_segment, key_injective, true_and]
  simp [present]

end Reference

theorem Component.classify_lookup (schemas : List (String × Schema)) (taken : List String)
    (entries : List (String × Schema)) (name : String) :
    ((classify schemas taken entries).find? (·.name == name)).map (fun d => (d.name, d.schema))
      = (entries.lookup name).map fun s => (name, s) := by
  induction entries generalizing taken with
  | nil => rfl
  | cons entry rest ih =>
      rcases entry with ⟨key, s⟩
      have either : ∃ typeName kind later, classify schemas taken ((key, s) :: rest)
          = ⟨key, typeName, kind, s⟩ :: classify schemas later rest := by
        rw [classify]
        dsimp only
        split
        · exact ⟨_, _, _, rfl⟩
        · exact ⟨_, _, _, rfl⟩
      obtain ⟨typeName, kind, later, classified⟩ := either
      rw [classified, List.find?_cons, List.lookup_cons]
      dsimp only
      by_cases same : key = name
      · rw [same, beq_self_eq_true]
        rfl
      · rw [beq_eq_false_iff_ne.mpr same, beq_eq_false_iff_ne.mpr (Ne.symm same)]
        exact ih later

namespace Reference

open Text

/-- Every component is addressable: the reference that is made from a name is read as that name, by
its own section only, and leads to what the document holds under it. -/
theorem component_addressable (hex : HexDigits) (name : String) (present : name ≠ "") :
    (∀ group wanted, componentName? wanted (toComponent hex group name)
        = if wanted = group then some name else none)
      ∧ (∀ document config,
          ((Catalog.ofDocument document config).target (toComponent hex .schemas name)).map
              (fun d => (d.name, d.schema))
            = match document.schemas.lookup name with
              | some s => .ok (name, s)
              | none => .error (.unresolvedReference (toComponent hex .schemas name)))
      ∧ ∀ (α : Type) (components : List (String × α)) group,
          Document.find components group (.reference (toComponent hex group name))
            = match components.lookup name with
              | some a => .ok a
              | none => .error (.unresolvedReference (toComponent hex group name)) := by
  have read := fun group wanted => component_name_read hex group wanted name present
  refine ⟨read, ?_, ?_⟩
  · intro document config
    have looked := Component.classify_lookup document.schemas [] document.schemas name
    rw [Catalog.target, read, if_pos rfl, Option.bind_some]
    change ((Catalog.ofDocument document config).component? name).map _ = _ at looked
    cases found : (Catalog.ofDocument document config).component? name with
    | none =>
        rw [found] at looked
        have missing : document.schemas.lookup name = none := Option.map_eq_none_iff.mp looked.symm
        exact missing ▸ rfl
    | some d =>
        rw [found] at looked
        obtain ⟨s, isStored, same⟩ := Option.map_eq_some_iff.mp looked.symm
        rw [isStored]
        exact congrArg Except.ok same.symm
  · intro α components group
    cases found : components.lookup name with
    | none => simp [Document.find, read, found]
    | some a => simp [Document.find, read, found]

-- A name with what each layer of the encoding escapes.
def awkward : Document where
  version := .v31
  contents := { components := { schemas := [
    ("a/b", { type := some (.single "string") }),
    ("~1 50%2F/é~0", { type := some (.single "integer") })] } }

theorem awkward_addressable :
    let name := "~1 50%2F/é~0"
    let reference := toComponent upperHex .schemas name
    reference = "#/components/schemas/~01%2050%252F~1%C3%A9~00"
      ∧ componentName? .schemas reference = some name
      ∧ componentName? .headers reference = none
      ∧ ((Catalog.ofDocument awkward {}).target reference).map (fun d => (d.name, d.schema))
          = .ok (name, { type := some (.single "integer") }) := by
  intro name reference
  have addressable := component_addressable upperHex name (by decide)
  refine ⟨by decide, addressable.1 .schemas .schemas, addressable.1 .schemas .headers, ?_⟩
  exact addressable.2.1 awkward {}

end Reference

end OpenApi
