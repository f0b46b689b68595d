import OpenApi.Proofs.Json.Assoc
import OpenApi.Type.Flags

set_option autoImplicit false

namespace OpenApi

namespace Schema

def literals (s : Schema) : List Value :=
  match s.enumValues with
  | some values => values
  | none => s.constValue.toList

structure IsShapeless (s : Schema) : Prop where
  type : s.type = none
  properties : s.properties = []
  additionalProperties : s.additionalProperties = none
  items : s.items = none
  prefixItems : s.prefixItems = []

end Schema

namespace TypeFlags

-- Null is admitted by its flag and any other literal by its type, an integer also as a number.
def Admits (flags : TypeFlags) (value : Value) : Prop :=
  match JsonType.ofValue value with
  | .null => flags.includesNull = true
  | .integer => .integer ∈ flags.types ∨ .number ∈ flags.types
  | type => type ∈ flags.types

section Types

structure IsProper (types : List JsonType) : Prop where
  distinct : types.Nodup
  noNull : .null ∉ types

theorem mem_push (types : List JsonType) (new type : JsonType) :
    type ∈ push types new ↔ type ∈ types ∨ type = new := mem_added types new type

theorem push_proper (types : List JsonType) (new : JsonType) (proper : IsProper types)
    (notNull : new ≠ .null) : IsProper (push types new) where
  distinct := added_distinct types new proper.distinct
  noNull member := by
    rcases (mem_push types new .null).mp member with old | same
    · exact proper.noNull old
    · exact notNull same.symm

theorem proper_empty : IsProper [] := ⟨List.nodup_nil, List.not_mem_nil⟩

theorem proper_singleton (type : JsonType) (notNull : type ≠ .null) : IsProper [type] :=
  push_proper [] type proper_empty notNull

theorem declared_proper (names : List String) : IsProper (declared names) := by
  apply List.foldlRecOn (names.filterMap JsonType.parse?) _ proper_empty
  intro types proper type _
  by_cases isNull : type = .null
  · simpa [isNull] using proper
  · simpa [isNull] using push_proper types type proper isNull

end Types

section Literals

theorem of_value_null (value : Value) : JsonType.ofValue value = .null ↔ value.isNull = true := by
  cases value with
  | num n => cases n <;> simp [JsonType.ofValue, Value.isNull, Number.isInteger]
  | _ => simp [JsonType.ofValue, Value.isNull]

variable (values : List Value)

theorem mem_pushed (types : List JsonType) (type : JsonType) :
    type ∈ values.foldl (fun types value => push types (.ofValue value)) types
      ↔ type ∈ types ∨ ∃ value ∈ values, JsonType.ofValue value = type := by
  induction values generalizing types with
  | nil => simp
  | cons value rest ih =>
      rw [List.foldl_cons, ih, mem_push, List.exists_mem_cons_iff, or_assoc, eq_comm (a := type)]

-- The types of the literals other than null, before integers are left out.
def pushed : List JsonType :=
  (values.filter fun value => !value.isNull).foldl
    (fun types value => push types (.ofValue value)) []

theorem pushed_proper : IsProper (pushed values) := by
  apply List.foldlRecOn (values.filter fun value => !value.isNull) _ proper_empty
  intro types proper value member
  apply push_proper types (.ofValue value) proper
  rw [Ne, of_value_null]
  simpa using (List.mem_filter.mp member).2

theorem mem_pushed_iff (type : JsonType) :
    type ∈ pushed values ↔ type ≠ .null ∧ ∃ value ∈ values, JsonType.ofValue value = type := by
  rw [pushed, mem_pushed]
  constructor
  · rintro (absent | ⟨value, member, rfl⟩)
    · cases absent
    · obtain ⟨present, notNull⟩ := List.mem_filter.mp member
      rw [Ne, of_value_null]
      exact ⟨by simpa using notNull, value, present, rfl⟩
  · rintro ⟨notNull, value, member, rfl⟩
    rw [Ne, of_value_null] at notNull
    exact .inr ⟨value, List.mem_filter.mpr ⟨member, by simpa using notNull⟩, rfl⟩

theorem of_literals_eq : ofLiterals values = if (pushed values).contains .number
    then (pushed values).filter (· != .integer) else pushed values := rfl

theorem of_literals_proper : IsProper (ofLiterals values) := by
  have proper := pushed_proper values
  rw [of_literals_eq]
  split
  · exact ⟨proper.distinct.filter _, fun member => proper.noNull (List.mem_filter.mp member).1⟩
  · exact proper

theorem mem_of_literals (type : JsonType) : type ∈ ofLiterals values
    ↔ type ∈ pushed values ∧ (type = .integer → .number ∉ pushed values) := by
  rw [of_literals_eq]
  by_cases widened : .number ∈ pushed values
  · simp [widened]
  · simp [widened]

theorem literal_admitted (flags : TypeFlags) (value : Value) (member : value ∈ values)
    (listed : flags.types = ofLiterals values)
    (nulls : values.any Value.isNull = true → flags.includesNull = true) : flags.Admits value := by
  have typed (notNull : JsonType.ofValue value ≠ .null) : .ofValue value ∈ pushed values :=
    (mem_pushed_iff values _).mpr ⟨notNull, value, member, rfl⟩
  rw [Admits, listed]
  split
  · rename_i isNull
    exact nulls (List.any_eq_true.mpr ⟨value, member, (of_value_null value).mp isNull⟩)
  · rename_i isInteger
    rw [isInteger] at typed
    by_cases widened : .number ∈ pushed values
    · exact .inr ((mem_of_literals values .number).mpr ⟨widened, fun same => by cases same⟩)
    · exact .inl ((mem_of_literals values .integer).mpr ⟨typed (by decide), fun _ => widened⟩)
  · rename_i notNull notInteger
    exact (mem_of_literals values _).mpr ⟨typed notNull, fun same => absurd same notInteger⟩

end Literals

section Schemas

variable (s : Schema)

theorem implied_proper : IsProper (implied s) := by
  rw [implied]
  split
  · exact proper_singleton .object (by decide)
  · split
    · exact proper_singleton .array (by decide)
    · split
      · exact of_literals_proper _
      · rename_i value _ _
        split
        · exact proper_empty
        · rename_i notNull
          exact proper_singleton _ (mt (of_value_null value).mp notNull)
      · exact proper_empty

theorem types_proper : IsProper (ofSchema s).types := by
  rw [ofSchema]
  split
  · exact declared_proper _
  · exact implied_proper s

variable (shapeless : s.IsShapeless)

include shapeless

theorem shapeless_types : (ofSchema s).types = ofLiterals s.literals := by
  have untyped : (ofSchema s).types = implied s := by rw [ofSchema, shapeless.type]
  rw [untyped, implied, Schema.literals]
  simp only [shapeless.properties, shapeless.additionalProperties, shapeless.items,
    shapeless.prefixItems, List.isEmpty_nil, Option.isSome_none, Bool.not_true, Bool.or_false,
    Bool.false_eq_true, if_false]
  cases s.enumValues with
  | some values => rfl
  | none =>
      cases s.constValue with
      | none => rfl
      | some value =>
          cases value with
          | num n => cases n <;> rfl
          | _ => rfl

theorem shapeless_null :
    (ofSchema s).includesNull = (s.isMarkedNullable || s.literals.any Value.isNull) := by
  have untyped : (ofSchema s).includesNull
      = ((s.isMarkedNullable || s.enumValues.any (·.any Value.isNull)) || impliesNull s) := by
    rw [ofSchema, shapeless.type]
  rw [untyped, impliesNull, Schema.literals, shapeless.properties, shapeless.additionalProperties,
    shapeless.items, shapeless.prefixItems]
  cases s.enumValues with
  | some values => simp
  | none => cases s.constValue <;> simp

end Schemas

/-- The types of a schema are pairwise different and never null. Of a schema without type and
structure every literal is admitted; nothing else is: each type is that of a literal, and null is
included only by a mark or a literal. -/
theorem flags_admit_literals (s : Schema) :
    (ofSchema s).types.Nodup ∧ .null ∉ (ofSchema s).types
      ∧ (s.IsShapeless → (∀ value ∈ s.literals, (ofSchema s).Admits value)
        ∧ (∀ type ∈ (ofSchema s).types, ∃ value ∈ s.literals, JsonType.ofValue value = type)
        ∧ ((ofSchema s).includesNull = true ↔ s.isMarkedNullable = true
          ∨ ∃ value ∈ s.literals, value.isNull = true)) := by
  have proper := types_proper s
  refine ⟨proper.distinct, proper.noNull, fun shapeless => ⟨?_, ?_, ?_⟩⟩
  · intro value member
    apply literal_admitted s.literals _ value member (shapeless_types s shapeless)
    intro null
    rw [shapeless_null s shapeless, null, Bool.or_true]
  · intro type member
    rw [shapeless_types s shapeless, mem_of_literals, mem_pushed_iff] at member
    exact member.1.2
  · rw [shapeless_null s shapeless, Bool.or_eq_true, List.any_eq_true]

def mixedLiterals : Schema where
  enumValues := some [.num (.int 1), .null, .str "one",
    .num (.float ⟨false, 5629499534213120, -51⟩), .num (.int 3)]

theorem mixed_literals_admitted : mixedLiterals.IsShapeless
    ∧ (ofSchema mixedLiterals).types = [.string, .number]
    ∧ (ofSchema mixedLiterals).includesNull = true
    ∧ ∀ value ∈ mixedLiterals.literals, (ofSchema mixedLiterals).Admits value := by
  have shapeless : mixedLiterals.IsShapeless := ⟨rfl, rfl, rfl, rfl, rfl⟩
  have admitted := ((flags_admit_literals mixedLiterals).2.2 shapeless).1
  exact ⟨shapeless, by decide, by decide, admitted⟩

end TypeFlags

end OpenApi
