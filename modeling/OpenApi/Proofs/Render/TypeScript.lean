import Mathlib.Data.List.Forall2
import OpenApi.Proofs.Render.Grammar
import OpenApi.Proofs.Type.Names
import OpenApi.Render.TypeScript

set_option autoImplicit false

namespace OpenApi

section Populated

mutual

def TypeRef.populated : TypeRef → Bool
  | .array item _ => item.populated
  | .map value => value.populated
  | .tuple items rest => ResolvedType.listPopulated items && ResolvedType.optionPopulated rest
  | .union members => !members.isEmpty && ResolvedType.listPopulated members
  | _ => true
termination_by structural t => t

def ResolvedType.populated : ResolvedType → Bool
  | { type, .. } => type.populated
termination_by structural t => t

def ResolvedType.listPopulated : List ResolvedType → Bool
  | [] => true
  | t :: rest => t.populated && ResolvedType.listPopulated rest
termination_by structural types => types

def ResolvedType.optionPopulated : Option ResolvedType → Bool
  | none => true
  | some t => t.populated
termination_by structural type => type

end

namespace ResolvedType

theorem list_populated_iff (types : List ResolvedType) :
    listPopulated types = true ↔ ∀ t ∈ types, t.populated = true := by
  induction types with
  | nil => simp [listPopulated]
  | cons t rest ih => simp [listPopulated, ih]

theorem option_populated_iff (type : Option ResolvedType) :
    optionPopulated type = true ↔ ∀ t ∈ type, t.populated = true := by
  cases type <;> simp [optionPopulated]

theorem populated_of_type (t : ResolvedType) : t.populated = t.type.populated := by cases t; rfl

end ResolvedType

theorem TypeRef.part_populated (type : TypeRef) (part : ResolvedType) (member : part ∈ type.parts)
    (populated : type.populated = true) : part.populated = true := by
  cases type with
  | array item unique | map item =>
      obtain rfl := List.mem_singleton.mp member
      exact populated
  | tuple items rest =>
      obtain ⟨itemsPopulated, restPopulated⟩ := Bool.and_eq_true_iff.mp populated
      rcases List.mem_append.mp member with inItems | isRest
      · exact (ResolvedType.list_populated_iff items).mp itemsPopulated part inItems
      · exact (ResolvedType.option_populated_iff rest).mp restPopulated part
          (Option.mem_toList.mp isRest)
  | union members =>
      obtain ⟨_, membersPopulated⟩ := Bool.and_eq_true_iff.mp populated
      exact (ResolvedType.list_populated_iff members).mp membersPopulated part member
  | primitive | named | any => cases member

end Populated

namespace TypeScript

section Translation

def nullMember (type : TypeRef) (nullable : Bool) : List Expression :=
  if nullable && !type.isAny then [.name "null"] else []

mutual

-- The members of the union that a type amounts to; one but for unions and nullable types.
def shapeMembers : TypeRef → List Expression
  | .primitive p => [.name (primitive p)]
  | .named name => [.name name]
  | .array item _ => [.array (oneOf (typeMembers item))]
  | .map value => [.generic "Record" [.name "string", oneOf (typeMembers value)]]
  | .tuple items rest => [.tuple (elements items ++ restElement rest)]
  | .union members => joinedMembers members
  | .any => [.name "unknown"]
termination_by structural t => t

def typeMembers : ResolvedType → List Expression
  | { type, nullable, .. } => shapeMembers type ++ nullMember type nullable
termination_by structural t => t

def elements : List ResolvedType → List Expression
  | [] => []
  | t :: rest => oneOf (typeMembers t) :: elements rest
termination_by structural ts => ts

def joinedMembers : List ResolvedType → List Expression
  | [] => []
  | t :: rest => typeMembers t ++ joinedMembers rest
termination_by structural ts => ts

def restElement : Option ResolvedType → List Expression
  | none => []
  | some t => [.spread (.array (oneOf (typeMembers t)))]
termination_by structural t => t

end

def expression (t : ResolvedType) : Expression := oneOf (typeMembers t)

end Translation

section Bar

variable (s rest : List Char)

theorem has_bar_append : hasBar (s ++ ' ' :: '|' :: ' ' :: rest) = true := by
  induction s with
  | nil => rfl
  | cons c s ih =>
      rw [List.cons_append, hasBar.eq_def]
      split
      · rfl
      · rename_i isCons
        obtain ⟨_, rfl⟩ := List.cons.inj isCons
        exact ih
      · contradiction

end Bar

structure Renders (text : String) (es : List Expression) : Prop where
  reads : Reads (.list .alternatives) (tokens text) es
  single : hasBar text.toList = false → ∃ e, es = [e]

section Rules

theorem operand_renders (text : String) (e : Expression)
    (reads : Reads .operand (tokens text) [e]) : Renders text [e] :=
  ⟨.last .alternatives _ e reads, fun _ => ⟨e, rfl⟩⟩

theorem name_renders (word : String) (isType : isTypeWord word = true) :
    Renders word [.name word] := by
  refine operand_renders word _ ?_
  rw [tokens_word word isType]
  exact primary_operand _ _ (.name word isType)

section Part

variable (text : String) (es : List Expression) (renders : Renders text es)

include renders

theorem renders_type : Reads .type (tokens text) [oneOf es] := .type _ es renders.reads

theorem array_operand : Reads .operand (tokens (arrayOf text)) [.array (oneOf es)] := by
  rw [arrayOf]
  cases bar : hasBar text.toList with
  | true =>
      have isText : tokens ("(" ++ text ++ ")[]")
          = (.mark '(' :: (tokens text ++ [.mark ')'])) ++ [.mark '[', .mark ']'] := by
        rw [tokens_enclosed text ")[]" "(" [.mark '('] (fun _ => rfl) rfl]
        simp only [List.cons_append, List.append_assoc]
        rfl
      rw [if_pos rfl, isText]
      exact operand_array _ _ (primary_operand _ _ (.parens _ _ (renders_type text es renders)))
  | false =>
      obtain ⟨e, rfl⟩ := renders.single bar
      rw [if_neg Bool.false_ne_true, tokens_append text "[]" rfl]
      exact operand_array _ e (single_operand _ e renders.reads)

theorem map_renders :
    Renders ("Record<string, " ++ text ++ ">") [.generic "Record" [.name "string", oneOf es]] := by
  have key : Reads .type [.word "string"] [.name "string"] :=
    .type _ _ (name_renders "string" (by decide)).reads
  have arguments : Reads (.list .arguments) (.word "string" :: .mark ',' :: tokens text)
      [.name "string", oneOf es] :=
    .more .arguments _ _ _ _ key (.last .arguments _ _ (renders_type text es renders))
  refine operand_renders _ _ ?_
  rw [tokens_enclosed text ">" "Record<string, "
    [.word "Record", .mark '<', .word "string", .mark ','] (fun _ => rfl) rfl]
  exact primary_operand _ _ (.generic "Record" _ _ (by decide) arguments)

theorem mark_renders (type : TypeRef) (nullable : Bool) :
    Renders (mark type nullable text) (es ++ nullMember type nullable) := by
  rw [mark, nullMember]
  by_cases marked : (nullable && !type.isAny) = true
  · rw [if_pos marked, if_pos marked]
    have null : Reads (.list .alternatives) [.word "null"] [.name "null"] :=
      (name_renders "null" (by decide)).reads
    constructor
    · rw [tokens_append text " | null" rfl]
      exact alternatives_append _ _ es _ renders.reads rfl null
    · intro noBar
      rw [String.toList_append] at noBar
      exact absurd noBar (ne_false_of_eq_true (has_bar_append text.toList _))
  · rw [if_neg marked, if_neg marked, List.append_nil]
    exact renders

end Part

section Joined

theorem tokens_joined (separator text next : String) (texts : List String) (ts : List Token)
    (apart : ∀ s, startsApart (separator.toList ++ s) = true)
    (opens : ∀ s, scan [] (separator.toList ++ s) = ts ++ scan [] s) :
    tokens (separator.intercalate (text :: next :: texts))
      = tokens text ++ (ts ++ tokens (separator.intercalate (next :: texts))) := by
  rw [String.intercalate_cons_cons, String.append_assoc, tokens_append text,
    tokens_opened _ separator ts opens]
  rw [String.toList_append]
  exact apart _

def ReadsElement (text : String) (e : Expression) : Prop := Reads .element (tokens text) [e]

theorem elements_joined (texts : List String) (es : List Expression) (some : texts ≠ [])
    (each : List.Forall₂ ReadsElement texts es) :
    Reads (.list .elements) (tokens (", ".intercalate texts)) es := by
  induction each with
  | nil => exact absurd rfl some
  | @cons text e texts es first others ih =>
      cases others with
      | nil =>
          rw [String.intercalate_singleton]
          exact .last .elements _ e first
      | @cons next e' texts es second others =>
          rw [tokens_joined ", " text next texts [.mark ','] (fun _ => rfl) fun _ => rfl]
          exact .more .elements _ _ e _ first (ih (List.cons_ne_nil _ _))

theorem tuple_renders (texts : List String) (es : List Expression)
    (each : List.Forall₂ ReadsElement texts es) :
    Renders ("[" ++ ", ".intercalate texts ++ "]") [.tuple es] := by
  refine operand_renders _ _ (primary_operand _ _ ?_)
  cases each with
  | nil => exact .emptyTuple
  | cons first others =>
      rw [tokens_enclosed _ "]" "[" [.mark '['] (fun _ => rfl) rfl]
      refine .tuple _ _ (elements_joined _ _ (List.cons_ne_nil _ _) (.cons first others))

theorem union_renders (members : List ResolvedType) (some : members ≠ [])
    (each : ∀ t ∈ members, Renders (type t) (typeMembers t)) :
    Renders (" | ".intercalate (types members)) (joinedMembers members) := by
  induction members with
  | nil => exact absurd rfl some
  | cons t others ih =>
      obtain ⟨first, later⟩ := List.forall_mem_cons.mp each
      cases others with
      | nil =>
          rw [types, types, String.intercalate_singleton, joinedMembers, joinedMembers,
            List.append_nil]
          exact first
      | cons next others =>
          constructor
          · rw [types, types, joinedMembers,
              tokens_joined " | " _ _ _ [.mark '|'] (fun _ => rfl) fun _ => rfl]
            have remaining := ih (List.cons_ne_nil _ _) later
            exact alternatives_append _ _ _ _ first.reads rfl remaining.reads
          · intro noBar
            rw [types, types, String.intercalate_cons_cons, String.append_assoc,
              String.toList_append, String.toList_append] at noBar
            exact absurd noBar (ne_false_of_eq_true (has_bar_append (type t).toList _))

theorem items_read (items : List ResolvedType)
    (each : ∀ t ∈ items, Renders (type t) (typeMembers t)) :
    List.Forall₂ ReadsElement (types items) (elements items) := by
  induction items with
  | nil => exact .nil
  | cons t rest ih =>
      obtain ⟨first, others⟩ := List.forall_mem_cons.mp each
      exact .cons (.plain _ _ (renders_type _ _ first)) (ih others)

theorem rest_read (rest : Option ResolvedType)
    (each : ∀ t ∈ rest, Renders (type t) (typeMembers t)) :
    List.Forall₂ ReadsElement (spread rest) (restElement rest) := by
  cases rest with
  | none => exact .nil
  | some t =>
      refine .cons ?_ .nil
      have item := operand_renders _ _ (array_operand _ _ (each t rfl))
      rw [ReadsElement, tokens_opened _ "..." [.spread] fun _ => rfl]
      exact .spread _ _ (renders_type _ _ item)

end Joined

theorem primitive_word (p : Primitive) : isTypeWord (primitive p) = true := by
  cases p <;> decide

theorem shape_renders (shape : TypeRef) (populated : shape.populated = true)
    (named : ∀ name ∈ shape.names, isIdentifier name = true)
    (each : ∀ t ∈ shape.parts, Renders (type t) (typeMembers t)) :
    Renders (TypeScript.shape shape) (shapeMembers shape) := by
  cases shape with
  | primitive p => exact name_renders _ (primitive_word p)
  | named name =>
      have isName : isIdentifier name = true := named name (List.mem_singleton_self name)
      exact name_renders name (by rw [isTypeWord, isName, Bool.true_or])
  | array item unique =>
      exact operand_renders _ _ (array_operand _ _ (each item (List.mem_singleton_self item)))
  | map value => exact map_renders _ _ (each value (List.mem_singleton_self value))
  | tuple items rest =>
      obtain ⟨itemsRender, restRenders⟩ := List.forall_mem_append.mp each
      refine tuple_renders _ _ (List.rel_append (items_read items itemsRender) ?_)
      exact rest_read rest fun t isRest => restRenders t (Option.mem_toList.mpr isRest)
  | union members =>
      have some : members ≠ [] := by
        simpa using (Bool.and_eq_true_iff.mp populated).1
      exact union_renders members some each
  | any => exact name_renders "unknown" (by decide)

end Rules

theorem type_renders (t : ResolvedType) (populated : t.populated = true)
    (named : ∀ name ∈ t.names, isIdentifier name = true) : Renders (type t) (typeMembers t) := by
  rw [ResolvedType.populated_of_type] at populated
  rw [ResolvedType.names_of_type] at named
  have each : ∀ part ∈ t.type.parts, Renders (type part) (typeMembers part) := by
    intro part member
    have smaller := (t.type.part_smaller part member).trans t.type_smaller
    refine type_renders part (t.type.part_populated part member populated) fun name inPart => ?_
    exact named name (t.type.part_names part member name inPart)
  have shapeRenders := shape_renders t.type populated named each
  cases t
  exact mark_renders _ _ shapeRenders _ _
termination_by sizeOf t

/-- The text of a type is read in exactly one way: as the array, record, tuple or flattened union
that the type amounts to, with null as one more member where it admits null. -/
theorem type_text_read (t : ResolvedType) (populated : t.populated = true)
    (named : ∀ name ∈ t.names, isIdentifier name = true) (e : Expression) :
    Parses (type t) e ↔ e = expression t := by
  have parses : Parses (type t) (expression t) := renders_type _ _ (type_renders t populated named)
  constructor
  · exact fun parses' => parses_unique _ _ _ parses' parses
  · rintro rfl
    exact parses

def entries : ResolvedType :=
  let flags : ResolvedType := { type := .union [.ofPrimitive .boolean, .ofPrimitive .date] }
  let count : ResolvedType := { type := .primitive .int32, nullable := true }
  let notes : ResolvedType := .mapOf { type := .primitive .string, nullable := true }
  let row : ResolvedType := { type := .tuple [count] (some flags) }
  let entry : ResolvedType := { type := .union [.named "Pet", notes, row] }
  { type := .array entry false, nullable := true }

theorem entries_read : entries.populated = true
    ∧ (∀ name ∈ entries.names, isIdentifier name = true)
    ∧ type entries
      = "(Pet | Record<string, string | null> | [number | null, ...(boolean | string)[]])[] | null"
    ∧ Parses (type entries) (.union [
        .array (.union [
          .name "Pet",
          .generic "Record" [.name "string", .union [.name "string", .name "null"]],
          .tuple [
            .union [.name "number", .name "null"],
            .spread (.array (.union [.name "boolean", .name "string"]))]]),
        .name "null"]) :=
  ⟨by decide, by decide, by decide, (type_text_read entries (by decide) (by decide) _).mpr rfl⟩

end TypeScript

end OpenApi
