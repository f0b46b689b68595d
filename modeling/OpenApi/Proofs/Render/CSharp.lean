import Mathlib.Data.List.Chain
import OpenApi.Proofs.Type.Names
import OpenApi.Render.CSharp

set_option autoImplicit false

namespace OpenApi.CSharp

section Texts

def EndsMarked (text : String) : Prop := text.toList.getLast? = some '?'

instance (text : String) : Decidable (EndsMarked text) :=
  inferInstanceAs (Decidable (text.toList.getLast? = some '?'))

def Spaced (text : String) : Prop := text.toList.IsChain fun a b => a = '?' → b ≠ '?'

variable (text next : String)

theorem spaced_iff : Spaced text ↔ ¬ ['?', '?'] <:+: text.toList := by
  rw [Spaced, List.isChain_iff_forall_rel_of_append_cons_cons]
  constructor
  · rintro spaced ⟨before, after, isText⟩
    rw [List.append_assoc] at isText
    exact spaced isText.symm rfl rfl
  · rintro none a b before after isText rfl rfl
    exact none ⟨before, after, by rw [isText, List.append_assoc]; rfl⟩

theorem unmarked_spaced (unmarked : '?' ∉ text.toList) : Spaced text := by
  rw [spaced_iff]
  exact fun double => unmarked (double.subset (List.mem_cons_self ..))

theorem spaced_append (spaced : Spaced text) (others : Spaced next)
    (apart : EndsMarked text → next.toList.head? ≠ some '?') : Spaced (text ++ next) := by
  rw [Spaced, String.toList_append, List.isChain_append]
  refine ⟨spaced, others, ?_⟩
  rintro a ends b starts rfl rfl
  exact apart ends starts

theorem unmarked_end (unmarked : '?' ∉ text.toList) : ¬ EndsMarked text :=
  fun ends => unmarked (List.mem_of_getLast? ends)

theorem ends_append (some : next ≠ "") : EndsMarked (text ++ next) ↔ EndsMarked next := by
  rw [EndsMarked, String.toList_append, List.getLast?_append_of_ne_nil, EndsMarked]
  exact fun empty => some (String.toList_eq_nil_iff.mp empty)

theorem closed_end (some : next ≠ "") (unmarked : '?' ∉ next.toList) :
    ¬ EndsMarked (text ++ next) := by
  rw [ends_append text next some]
  exact unmarked_end next unmarked

theorem enclosed_spaced (opening closing : String) (opens : '?' ∉ opening.toList)
    (closes : '?' ∉ closing.toList) (spaced : Spaced text) : Spaced (opening ++ text ++ closing) := by
  refine spaced_append _ _ ?_ (unmarked_spaced closing closes) ?_
  · refine spaced_append _ _ (unmarked_spaced opening opens) spaced fun ends => ?_
    exact absurd ends (unmarked_end opening opens)
  · exact fun _ starts => closes (List.mem_of_head? starts)

theorem joined_spaced (texts : List String) (each : ∀ text ∈ texts, Spaced text) :
    Spaced (", ".intercalate texts) := by
  induction texts with
  | nil => exact .nil
  | cons text rest ih =>
      obtain ⟨first, others⟩ := List.forall_mem_cons.mp each
      cases rest with
      | nil =>
          rw [String.intercalate_singleton]
          exact first
      | cons next rest =>
          rw [String.intercalate_cons_cons]
          have separated : Spaced (text ++ ", ") :=
            spaced_append text ", " first (unmarked_spaced _ (by decide)) fun _ => by decide
          refine spaced_append _ _ separated (ih others) fun ends => ?_
          exact absurd ends (closed_end text ", " (by decide) (by decide))

end Texts

section Rules

variable (c : CSharp) (type : TypeRef) (nullable : Bool)

-- The types whose values are stored as they are; names are those of enumerations.
inductive ValueType (enumerations : List String) : TypeRef → Prop where
  | primitive (p : Primitive) (plain : p ∉ [.string, .uri, .bytes, .binary]) :
      ValueType enumerations (.primitive p)
  | enumeration (name : String) (registered : name ∈ enumerations) :
      ValueType enumerations (.named name)
  | tuple (items : List ResolvedType) (rest : Option ResolvedType) :
      ValueType enumerations (.tuple items rest)
  | union (members : List ResolvedType) : ValueType enumerations (.union members)
  | any : ValueType enumerations .any

theorem value_type_iff : c.isValueType type = true ↔ ValueType c.valueTypes type := by
  cases type with
  | primitive p =>
      have plain : isValuePrimitive p = true ↔ p ∉ [.string, .uri, .bytes, .binary] := by
        cases p <;> decide
      exact plain.trans ⟨.primitive p, fun | .primitive _ plain => plain⟩
  | named name =>
      have registered : c.valueTypes.contains name = true ↔ name ∈ c.valueTypes :=
        List.contains_iff_mem
      exact registered.trans ⟨.enumeration name, fun | .enumeration _ registered => registered⟩
  | tuple items rest => exact iff_of_true rfl (.tuple items rest)
  | union members => exact iff_of_true rfl (.union members)
  | any => exact iff_of_true rfl .any
  | array | map => exact iff_of_false Bool.false_ne_true nofun

def canMark : Bool := c.isValueType type || c.nullableReferenceTypes

-- A value of the type may be null. References that are not marked always may.
def acceptsNull : Bool :=
  if c.isValueType type then nullable else nullable || !c.nullableReferenceTypes

structure MarksNull (text : String) : Prop where
  ends : EndsMarked text ↔ nullable = true ∧ c.canMark type = true
  single : ¬ ['?', '?'] <:+: text.toList

theorem primitive_unmarked (p : Primitive) : '?' ∉ (primitive p).toList := by
  cases p <;> decide

theorem tuple_ends (texts : List String) : ¬ EndsMarked (tuple texts) := by
  unfold tuple
  split
  · exact unmarked_end untyped (by decide)
  · exact closed_end _ ">" (by decide) (by decide)
  · exact closed_end _ ")" (by decide) (by decide)

theorem tuple_spaced (texts : List String) (each : ∀ text ∈ texts, Spaced text) :
    Spaced (tuple texts) := by
  unfold tuple
  split
  · exact unmarked_spaced _ (by decide)
  · exact enclosed_spaced _ _ _ (by decide) (by decide) (each _ (List.mem_singleton_self _))
  · exact enclosed_spaced _ _ _ (by decide) (by decide) (joined_spaced _ each)

theorem types_spaced (items : List ResolvedType) (each : ∀ t ∈ items, Spaced (c.type t)) :
    ∀ text ∈ c.types items, Spaced text := by
  induction items with
  | nil => exact List.forall_mem_nil _
  | cons t rest ih =>
      obtain ⟨first, others⟩ := List.forall_mem_cons.mp each
      exact List.forall_mem_cons.mpr ⟨first, ih others⟩

section Shape

variable (named : ∀ name ∈ type.names, '?' ∉ name.toList)

include named

theorem shape_ends : ¬ EndsMarked (c.shape type) := by
  cases type with
  | primitive p => exact unmarked_end _ (primitive_unmarked p)
  | named name => exact unmarked_end _ (named name (List.mem_singleton_self name))
  | array item unique =>
      cases unique
      · exact closed_end _ ">" (by decide) (by decide)
      · exact closed_end _ ">" (by decide) (by decide)
  | map value => exact closed_end _ ">" (by decide) (by decide)
  | tuple items rest =>
      cases rest with
      | none => exact tuple_ends (c.types items)
      | some rest => exact unmarked_end untyped (by decide)
  | union | any => exact unmarked_end untyped (by decide)

theorem shape_spaced (each : ∀ t ∈ type.parts, Spaced (c.type t)) : Spaced (c.shape type) := by
  cases type with
  | primitive p => exact unmarked_spaced _ (primitive_unmarked p)
  | named name => exact unmarked_spaced _ (named name (List.mem_singleton_self name))
  | array item unique =>
      have ofItem := each item (List.mem_singleton_self item)
      cases unique
      · exact enclosed_spaced _ _ _ (by decide) (by decide) ofItem
      · exact enclosed_spaced _ _ _ (by decide) (by decide) ofItem
  | map value =>
      have ofValue := each value (List.mem_singleton_self value)
      exact enclosed_spaced _ _ _ (by decide) (by decide) ofValue
  | tuple items rest =>
      cases rest with
      | none =>
          have ofItems : ∀ t ∈ items, Spaced (c.type t) :=
            fun t member => each t (List.mem_append_left _ member)
          exact tuple_spaced _ (types_spaced c items ofItems)
      | some rest => exact unmarked_spaced untyped (by decide)
  | union | any => exact unmarked_spaced untyped (by decide)

end Shape

theorem mark_marks (text : String) (openEnded : ¬ EndsMarked text) (spaced : Spaced text) :
    c.MarksNull type nullable (c.mark type nullable text) := by
  have condition : (nullable && (c.isValueType type || c.nullableReferenceTypes)) = true
      ↔ nullable = true ∧ c.canMark type = true := Bool.and_eq_true_iff
  rw [mark]
  by_cases marked : nullable = true ∧ c.canMark type = true
  · rw [if_pos (condition.mpr marked)]
    constructor
    · simp only [marked, and_self, iff_true]
      exact (ends_append text "?" (by decide)).mpr (by decide)
    · rw [← spaced_iff]
      exact spaced_append _ _ spaced (.singleton _) fun ends => absurd ends openEnded
  · rw [if_neg (condition.not.mpr marked)]
    exact ⟨iff_of_false openEnded marked, (spaced_iff text).mp spaced⟩

end Rules

variable (c : CSharp)

theorem type_of_shape (t : ResolvedType) :
    c.type t = c.mark t.type t.nullable (c.shape t.type) := by cases t; rfl

theorem type_marks (t : ResolvedType) (named : ∀ name ∈ t.names, '?' ∉ name.toList) :
    c.MarksNull t.type t.nullable (c.type t) := by
  rw [ResolvedType.names_of_type] at named
  have each : ∀ part ∈ t.type.parts, Spaced (c.type part) := by
    intro part member
    have smaller := (t.type.part_smaller part member).trans t.type_smaller
    refine (spaced_iff _).mpr (type_marks part fun name inPart => ?_).single
    exact named name (t.type.part_names part member name inPart)
  -- no shape has a question mark around the texts of its parts, so none meets the one at their ends
  rw [type_of_shape]
  exact mark_marks c _ _ _ (shape_ends c t.type named) (shape_spaced c t.type named each)
termination_by sizeOf t

theorem accepts_null_iff (type : TypeRef) (nullable : Bool) : c.acceptsNull type nullable = true ↔
    (nullable = true ∧ c.canMark type = true)
      ∨ c.isValueType type = false ∧ c.nullableReferenceTypes = false := by
  rw [acceptsNull, canMark]
  cases c.isValueType type <;> cases c.nullableReferenceTypes <;> simp

theorem optional_default_cases (t : ResolvedType) (rendered : String) :
    let unmarked := c.isValueType t.type = false ∧ c.nullableReferenceTypes = false
    (EndsMarked rendered ∨ unmarked) ∧ c.optionalDefault t rendered = "null"
      ∨ ¬ (EndsMarked rendered ∨ unmarked) ∧ c.optionalDefault t rendered = "default" := by
  dsimp only
  have condition : (rendered.toList.getLast? == some '?'
        || !c.nullableReferenceTypes && !c.isValueType t.type) = true
      ↔ EndsMarked rendered
        ∨ c.isValueType t.type = false ∧ c.nullableReferenceTypes = false := by
    simp [EndsMarked, and_comm]
  rw [optionalDefault]
  by_cases accepts : EndsMarked rendered
      ∨ c.isValueType t.type = false ∧ c.nullableReferenceTypes = false
  · exact .inl ⟨accepts, if_pos (condition.mpr accepts)⟩
  · exact .inr ⟨accepts, if_neg (condition.not.mpr accepts)⟩

/-- The text of a type ends in a question mark exactly if the type admits null, of itself or as an
optional member, and can be marked; no two question marks stand together in it at any depth, as long
as the names in it have none, like all identifiers. The default of an optional member is null exactly
if its text is marked or it is a reference that never is, which is so exactly if the type accepts
null. All but some primitives are value types, and so are enumerations, tuples, unions and what has
no type; names of records, arrays and maps are references. -/
theorem null_marks_consistent (t : ResolvedType) (isOptional : Bool)
    (named : ∀ name ∈ t.names, '?' ∉ name.toList) :
    let nullable := t.nullable || isOptional && c.optionalAsNullable
    let member := c.memberType t isOptional
    let default := c.optionalDefault t member
    (c.isValueType t.type = true ↔ ValueType c.valueTypes t.type)
      ∧ c.MarksNull t.type t.nullable (c.type t)
      ∧ c.MarksNull t.type nullable member
      ∧ (default = "null" ↔
        EndsMarked member ∨ c.isValueType t.type = false ∧ c.nullableReferenceTypes = false)
      ∧ (default = "null" ↔ c.acceptsNull t.type nullable = true)
      ∧ (default ≠ "null" → default = "default") := by
  dsimp only
  have ofMember : c.MarksNull t.type (t.nullable || isOptional && c.optionalAsNullable)
      (c.memberType t isOptional) :=
    type_marks c (t.orNull (isOptional && c.optionalAsNullable))
      (by rwa [ResolvedType.names_or_null])
  rw [accepts_null_iff, ← ofMember.ends]
  refine ⟨value_type_iff c t.type, type_marks c t named, ofMember, ?_⟩
  rcases optional_default_cases c t (c.memberType t isOptional) with ⟨accepts, isNull⟩ | ⟨not, other⟩
  · refine ⟨iff_of_true isNull accepts, iff_of_true isNull accepts, fun notNull => ?_⟩
    exact absurd isNull notNull
  · have notNull : c.optionalDefault t (c.memberType t isOptional) ≠ "null" := by
      rw [other]
      decide
    exact ⟨iff_of_false notNull not, iff_of_false notNull not, fun _ => other⟩

def status : ResolvedType := { type := .named "Status", nullable := true }

def statuses : ResolvedType := { type := .array status true, nullable := true }

def board : ResolvedType :=
  let row : ResolvedType := { type := .tuple [.ofPrimitive .date] (some status), nullable := true }
  let rows : ResolvedType := .mapOf { type := .tuple [row] none }
  { type := .tuple [statuses, rows] none }

theorem board_marked :
    let marking : CSharp :=
      { nullableReferenceTypes := true, optionalAsNullable := true, valueTypes := ["Status"] }
    let plain : CSharp := { marking with nullableReferenceTypes := false }
    (∀ name ∈ board.names, '?' ∉ name.toList)
      ∧ marking.memberType board true
        = "(HashSet<Status?>?, Dictionary<string, ValueTuple<JsonElement?>>)?"
      ∧ marking.MarksNull board.type true (marking.memberType board true)
      ∧ marking.optionalDefault board (marking.memberType board true) = "null"
      ∧ plain.memberType statuses true = "HashSet<Status?>"
      ∧ plain.MarksNull statuses.type true (plain.memberType statuses true)
      ∧ plain.optionalDefault statuses (plain.memberType statuses true) = "null" := by
  intro marking plain
  have named : ∀ name ∈ board.names, '?' ∉ name.toList := by decide
  obtain ⟨_, _, marks, _, accepts, _⟩ := null_marks_consistent marking board true named
  obtain ⟨_, _, marksPlain, _, acceptsPlain, _⟩ :=
    null_marks_consistent plain statuses true (by decide)
  exact ⟨named, by decide, marks, accepts.mpr rfl, by decide, marksPlain, acceptsPlain.mpr rfl⟩

end OpenApi.CSharp
