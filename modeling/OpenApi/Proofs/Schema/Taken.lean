import OpenApi.Proofs.Schema.Keyed
import OpenApi.Proofs.Schema.Slot

set_option autoImplicit false

namespace OpenApi.Schema

open Decode

theorem decode_entries_origin (fields : List (String × Value)) (entries : List (String × Schema))
    (made : decodeEntries fields = .ok entries) :
    ∀ entry ∈ entries, ∃ field ∈ fields, decode field.2 = .ok entry.2 := by
  induction fields generalizing entries with
  | nil =>
      obtain rfl := Except.ok.inj made
      exact List.forall_mem_nil _
  | cons field rest ih =>
      rcases field with ⟨name, v⟩
      rw [decodeEntries] at made
      obtain ⟨s, decoded, made⟩ := ok_of_bind _ _ _ made
      obtain ⟨others, othersMade, made⟩ := ok_of_bind _ _ _ made
      obtain rfl := Except.ok.inj made
      refine List.forall_mem_cons.mpr ⟨⟨(name, v), List.mem_cons_self, decoded⟩, ?_⟩
      intro entry later
      obtain ⟨field, inRest, found⟩ := ih others othersMade entry later
      exact ⟨field, List.mem_cons_of_mem _ inRest, found⟩

theorem decode_items_origin (items : List Value) (schemas : List Schema)
    (made : decodeItems items = .ok schemas) : ∀ s ∈ schemas, ∃ v ∈ items, decode v = .ok s := by
  induction items generalizing schemas with
  | nil =>
      obtain rfl := Except.ok.inj made
      exact List.forall_mem_nil _
  | cons v rest ih =>
      rw [decodeItems] at made
      obtain ⟨s, decoded, made⟩ := ok_of_bind _ _ _ made
      obtain ⟨others, othersMade, made⟩ := ok_of_bind _ _ _ made
      obtain rfl := Except.ok.inj made
      refine List.forall_mem_cons.mpr ⟨⟨v, List.mem_cons_self, decoded⟩, ?_⟩
      intro s' later
      obtain ⟨w, inRest, found⟩ := ih others othersMade s' later
      exact ⟨w, List.mem_cons_of_mem _ inRest, found⟩

section Keywords

variable (v : Value)

theorem decode_properties_origin (properties : List (String × Schema))
    (made : decodeProperties v = .ok properties) :
    ∀ s ∈ properties.map (·.2), ∃ w ∈ v.children, decode w = .ok s := by
  cases v with
  | obj fields =>
      intro s member
      obtain ⟨property, inProperties, rfl⟩ := List.mem_map.mp member
      obtain ⟨field, inFields, decoded⟩ :=
        decode_entries_origin fields properties made property inProperties
      exact ⟨field.2, List.mem_map_of_mem inFields, decoded⟩
  | null | bool | num | str | arr => cases made

theorem decode_list_origin (schemas : List Schema) (made : decodeList v = .ok schemas) :
    ∀ s ∈ schemas, ∃ w ∈ v.children, decode w = .ok s := by
  cases v with
  | arr items => exact decode_items_origin items schemas made
  | null | bool | num | str | obj => cases made

theorem decode_or_bool_origin (keyword : Option (OrBool Schema))
    (made : decodeOrBool v = .ok keyword) : ∀ s ∈ OrBool.schemas keyword, decode v = .ok s := by
  cases v with
  | obj fields =>
      rw [decodeOrBool] at made
      cases decoded : decodeFields {} fields with
      | error fault =>
          rw [decoded] at made
          cases made
      | ok s =>
          rw [decoded] at made
          obtain rfl := Except.ok.inj made
          exact List.forall_mem_singleton.mpr decoded
  | null =>
      obtain rfl := Except.ok.inj made
      exact List.forall_mem_nil _
  | bool b =>
      obtain rfl := Except.ok.inj made
      exact List.forall_mem_nil _
  | num | str | arr => cases made

theorem decode_negated_origin (keyword : Option Schema) (made : decodeNegated v = .ok keyword) :
    ∀ s ∈ keyword, decode v = .ok s := by
  cases v with
  | obj fields =>
      rw [decodeNegated] at made
      cases decoded : decodeFields {} fields with
      | error fault =>
          rw [decoded] at made
          cases made
      | ok s =>
          rw [decoded] at made
          obtain rfl := Except.ok.inj made
          intro s' present
          obtain rfl := Option.some.inj present
          exact decoded
  | null =>
      obtain rfl := Except.ok.inj made
      exact fun s absent => by cases absent
  | bool | num | str | arr => cases made

end Keywords

structure Taken (s : Schema) (name : String) (v : Value) (next : Schema) : Prop where
  default : next.default = s.default ∨ optional value v = .ok next.default
  enumValues : next.enumValues = s.enumValues ∨ optional (list value) v = .ok next.enumValues
  constValue : next.constValue = s.constValue ∨ optional value v = .ok next.constValue
  properties : next.properties = s.properties ∨ decodeProperties v = .ok next.properties
  discriminator : next.discriminator = s.discriminator
    ∨ optional discriminatorOf v = .ok next.discriminator
  extra : next.extra = s.extra
    ∨ Keyword.parse? name = none ∧ next.extra = Assoc.putSorted s.extra name v
  children : ∀ child ∈ next.children, child ∈ s.children ∨ decode v = .ok child
    ∨ ∃ w ∈ v.children, decode w = .ok child

section Fields

variable (s s' : Schema) (name : String) (v : Value) (rest : List (String × Value))

theorem taken_nothing : Taken s name v s :=
  ⟨.inl rfl, .inl rfl, .inl rfl, .inl rfl, .inl rfl, .inl rfl, fun _ member => .inl member⟩

/-- One field of a schema. -/
theorem field_taken (made : decodeFields s ((name, v) :: rest) = .ok s') :
    ∃ next, Taken s name v next ∧ decodeFields next rest = .ok s' := by
  have nothing := taken_nothing s name v
  cases parsed : Keyword.parse? name with
  | none =>
      rw [decodeFields, parsed] at made
      let next : Schema := { s with extra := Assoc.putSorted s.extra name v }
      have taken : Taken s name v next := { nothing with extra := .inr ⟨parsed, rfl⟩ }
      exact ⟨next, taken, made⟩
  | some k =>
      rw [decode_keyword_eq s k name v rest parsed] at made
      obtain ⟨x, found, made⟩ := ok_of_bind _ _ _ made
      refine ⟨_, ?_, made⟩
      cases k
      case reference | type | format | contentEncoding | contentMediaType | nullable | title
          | description | deprecated | readOnly | writeOnly | required | minProperties
          | maxProperties | minItems | maxItems | uniqueItems | minLength | maxLength | pattern
          | minimum | maximum | exclusiveMinimum | exclusiveMaximum | multipleOf =>
        exact { nothing with }
      case default => exact { nothing with default := .inr found }
      case enumValues => exact { nothing with enumValues := .inr found }
      case constValue => exact { nothing with constValue := .inr found }
      case discriminator => exact { nothing with discriminator := .inr found }
      case properties =>
        refine { nothing with properties := .inr found, children := fun child member => ?_ }
        have origin := decode_properties_origin v x found child
        simp only [slot, children, List.mem_append] at member ⊢
        grind
      case additionalProperties | items =>
        refine { nothing with children := fun child member => ?_ }
        have origin := decode_or_bool_origin v x found child
        simp only [slot, children, List.mem_append] at member ⊢
        grind
      case prefixItems | allOf | oneOf | anyOf =>
        refine { nothing with children := fun child member => ?_ }
        have origin := decode_list_origin v x found child
        simp only [slot, children, List.mem_append] at member ⊢
        grind
      case not =>
        refine { nothing with children := fun child member => ?_ }
        have origin := decode_negated_origin v x found child
        simp only [slot, children, List.mem_append, Option.mem_toList] at member ⊢
        grind

end Fields

/-- What every field keeps is true of the schema that is read. -/
theorem fields_keep (P : Schema → Prop) (fields : List (String × Value)) (s s' : Schema)
    (start : P s)
    (keeps : ∀ s next, ∀ field ∈ fields, Taken s field.1 field.2 next → P s → P next)
    (made : decodeFields s fields = .ok s') : P s' := by
  induction fields generalizing s with
  | nil =>
      obtain rfl := Except.ok.inj made
      exact start
  | cons field rest ih =>
      obtain ⟨next, taken, made⟩ := field_taken s s' field.1 field.2 rest made
      have kept := keeps s next field List.mem_cons_self taken start
      refine ih next kept (fun s next field inRest => ?_) made
      exact keeps s next field (List.mem_cons_of_mem _ inRest)

end OpenApi.Schema
