import OpenApi.Type.Resolve

set_option autoImplicit false

namespace OpenApi

def ComponentKind.inlined : ComponentKind → ComponentKind
  | .hierarchy => .record
  | kind => kind

namespace Schema

structure IsPlain (s : Schema) : Prop where
  inline : s.reference = none
  uncomposed : s.allOf = []
  noUnion : s.unionMembers = []
  noTuple : s.prefixItems = []

inductive SynthesizedAs (s : Schema) : ComponentKind → Prop
  | composition (inline : s.reference = none) (composed : s.allOf.filter (!·.isNullMember) ≠ [])
      (several : ¬ ((s.allOf.filter (!·.isNullMember)).length = 1 ∧ s.properties = [])) :
      SynthesizedAs s .record
  | union (inline : s.reference = none) (uncomposed : s.allOf = [])
      (united : s.unionMembers.filter (!·.isNullOnly) ≠ [])
      (several : ¬ ((s.unionMembers.filter (!·.isNullOnly)).length = 1 ∧ s.discriminator = none)) :
      SynthesizedAs s .union
  | enumeration (plain : s.IsPlain) (enumerable : s.isEnumerable = true) :
      SynthesizedAs s .enumeration
  | object (plain : s.IsPlain) (isObject : (TypeFlags.ofSchema s).types = [.object])
      (declares : s.properties ≠ []) : SynthesizedAs s .record

-- The schema takes forms of which a component and an inline schema take different ones.
inductive IsMixed (s : Schema) : Prop
  | tuple (elements : s.prefixItems ≠ []) (other : s.allOf ≠ [] ∨ s.unionMembers ≠ [])
  | union (composed : s.allOf ≠ []) (united : s.unionMembers ≠ [])
  | literals (uncomposed : s.allOf = []) (noUnion : s.unionMembers = [])
      (isObject : (TypeFlags.ofSchema s).single? = some .object)
      (listed : ∃ values, s.enumValues = some values ∧ values.all Value.isNull = false)

section Kinds

variable (s : Schema)

theorem nonempty_of_filter (schemas : List Schema) (p : Schema → Bool)
    (kept : schemas.filter p ≠ []) : schemas ≠ [] := by
  rintro rfl
  exact kept rfl

theorem tuple_kind (inline : s.reference = none) (elements : s.prefixItems ≠ []) :
    s.kind = .tuple := by
  simp [Schema.kind, inline, elements]

theorem united_kind (inline : s.reference = none) (noTuple : s.prefixItems = [])
    (united : s.unionMembers ≠ []) : s.kind = s.unionKind := by
  simp [Schema.kind, inline, noTuple, united]

theorem composed_kind (inline : s.reference = none) (noTuple : s.prefixItems = [])
    (noUnion : s.unionMembers = []) (composed : s.allOf ≠ []) : s.kind = s.compositionKind := by
  simp [Schema.kind, inline, noTuple, noUnion, composed]

theorem plain_kind (plain : s.IsPlain) : s.kind = s.literalKind?.getD s.objectKind := by
  simp [Schema.kind, plain.inline, plain.noTuple, plain.noUnion, plain.uncomposed]

theorem union_kind_not_record : s.unionKind.inlined ≠ .record := by
  rw [unionKind]
  split
  · exact fun same => by cases same
  · exact fun same => by cases same

-- Of a tuple nothing is synthesized, so it is mixed with what the schema is synthesized as.
theorem composition_agrees_iff (inline : s.reference = none)
    (composed : s.allOf.filter (!·.isNullMember) ≠ [])
    (several : ¬ ((s.allOf.filter (!·.isNullMember)).length = 1 ∧ s.properties = [])) :
    ComponentKind.record = s.kind.inlined ↔ ¬ s.IsMixed := by
  have some : s.allOf ≠ [] := nonempty_of_filter _ _ composed
  by_cases noTuple : s.prefixItems = []
  · by_cases noUnion : s.unionMembers = []
    · have alone : ¬ s.IsMixed := by
        rintro (⟨elements, _⟩ | ⟨_, united⟩ | ⟨uncomposed⟩)
        · exact elements noTuple
        · exact united noUnion
        · exact some uncomposed
      have isKind : s.kind.inlined = .record := by
        rw [composed_kind s inline noTuple noUnion some, compositionKind]
        rw [if_neg fun single => several ⟨single.1, by simpa using single.2.1⟩]
        split <;> rfl
      simp [isKind, alone]
    · have mixed : s.IsMixed := .union some noUnion
      rw [united_kind s inline noTuple noUnion]
      simp [mixed, s.union_kind_not_record.symm]
  · have mixed : s.IsMixed := .tuple noTuple (.inl some)
    simp [tuple_kind s inline noTuple, ComponentKind.inlined, mixed]

theorem union_agrees_iff (inline : s.reference = none) (uncomposed : s.allOf = [])
    (united : s.unionMembers.filter (!·.isNullOnly) ≠ [])
    (several : ¬ ((s.unionMembers.filter (!·.isNullOnly)).length = 1 ∧ s.discriminator = none)) :
    ComponentKind.union = s.kind.inlined ↔ ¬ s.IsMixed := by
  have some : s.unionMembers ≠ [] := nonempty_of_filter _ _ united
  by_cases noTuple : s.prefixItems = []
  · have alone : ¬ s.IsMixed := by
      rintro (⟨elements, _⟩ | ⟨composed, _⟩ | ⟨_, noUnion⟩)
      · exact elements noTuple
      · exact composed uncomposed
      · exact some noUnion
    have isKind : s.kind = .union := by
      have positive := List.length_pos_iff.mpr united
      rw [united_kind s inline noTuple some, unionKind]
      refine if_pos ?_
      by_cases declared : s.discriminator = none
      · have notOne : (s.unionMembers.filter (!·.isNullOnly)).length ≠ 1 :=
          fun one => several ⟨one, declared⟩
        exact .inl (by omega)
      · exact .inr ⟨Option.isSome_iff_ne_none.mpr declared, positive⟩
    simp [isKind, ComponentKind.inlined, alone]
  · have mixed : s.IsMixed := .tuple noTuple (.inr some)
    simp [tuple_kind s inline noTuple, ComponentKind.inlined, mixed]

theorem no_union_iff : s.unionMembers = [] ↔ s.oneOf = [] ∧ s.anyOf = [] := by
  by_cases one : s.oneOf = [] <;> simp [unionMembers, one]

variable (plain : s.IsPlain)

include plain

theorem plain_mixed_iff : s.IsMixed ↔ (TypeFlags.ofSchema s).single? = some .object
    ∧ ∃ values, s.enumValues = some values ∧ values.all Value.isNull = false := by
  constructor
  · rintro (⟨elements, _⟩ | ⟨composed, _⟩ | ⟨_, _, isObject, listed⟩)
    · exact absurd plain.noTuple elements
    · exact absurd plain.uncomposed composed
    · exact ⟨isObject, listed⟩
  · rintro ⟨isObject, listed⟩
    exact .literals plain.uncomposed plain.noUnion isObject listed

theorem enumeration_agrees_iff (enumerable : s.isEnumerable = true) :
    ComponentKind.enumeration = s.kind.inlined ↔ ¬ s.IsMixed := by
  obtain ⟨single, listed⟩ := Bool.and_eq_true_iff.mp enumerable
  obtain ⟨values, isValues, several⟩ := (Option.any_eq_true _ _).mp listed
  have present : ¬ values.all Value.isNull = true := by
    intro all
    have none : values.filter (!·.isNull) = [] := by simpa using all
    simp [none] at several
  have isKind : s.kind = .enumeration := by
    rw [plain_kind s plain, literalKind?, isValues]
    dsimp only
    rw [if_neg present]
    rcases Bool.or_eq_true_iff.mp single with text | integer
    · rw [beq_iff_eq.mp text]
      rfl
    · rw [beq_iff_eq.mp integer]
      rfl
  rw [isKind, plain_mixed_iff s plain]
  rcases Bool.or_eq_true_iff.mp single with text | integer
  · simp [ComponentKind.inlined, beq_iff_eq.mp text]
  · simp [ComponentKind.inlined, beq_iff_eq.mp integer]

theorem object_agrees_iff (isObject : (TypeFlags.ofSchema s).types = [.object])
    (declares : s.properties ≠ []) : ComponentKind.record = s.kind.inlined ↔ ¬ s.IsMixed := by
  have single : (TypeFlags.ofSchema s).single? = some .object := by rw [TypeFlags.single?, isObject]
  have object : s.objectKind.inlined = .record := by
    rw [objectKind]
    split
    · rfl
    · rw [if_pos ⟨single, by simpa using declares⟩]
      rfl
  rw [plain_mixed_iff s plain, plain_kind s plain, literalKind?, single]
  cases literals : s.enumValues with
  | none => simp [object]
  | some values =>
      dsimp only
      cases listed : values.all Value.isNull with
      | true => simp [-List.all_eq_true, -List.all_eq_false, object, listed]
      | false => simp [-List.all_eq_true, -List.all_eq_false, ComponentKind.inlined, listed]

end Kinds

theorem synthesized_agrees_iff (s : Schema) (kind : ComponentKind) (form : s.SynthesizedAs kind) :
    kind = s.kind.inlined ↔ ¬ s.IsMixed := by
  cases form with
  | composition inline composed several => exact composition_agrees_iff s inline composed several
  | union inline uncomposed united several =>
      exact union_agrees_iff s inline uncomposed united several
  | enumeration plain enumerable => exact enumeration_agrees_iff s plain enumerable
  | object plain isObject declares => exact object_agrees_iff s plain isObject declares

end Schema

end OpenApi
