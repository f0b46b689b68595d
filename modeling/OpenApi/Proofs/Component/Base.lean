import OpenApi.Component.Variant
import OpenApi.Proofs.Component.Origin

set_option autoImplicit false

namespace OpenApi.Catalog

variable (c : Catalog)

def inherited? (m : Schema) : Option Component :=
  if m.isNullMember then none
  else ((m.reference.bind (Reference.componentName? .schemas)).bind c.component?).filter
    (·.kind.isRecordLike)

def firstBase? (members : List Schema) : Option Component := members.findSome? c.inherited?

theorem inherited_null (m : Schema) (isNull : m.isNullMember = true) : c.inherited? m = none :=
  if_pos isNull

theorem inherited_inline (m : Schema) (inline : m.reference = none) : c.inherited? m = none := by
  rw [inherited?, inline]
  exact ite_self none

theorem inherited_target (m : Schema) (reference : String) (d : Component)
    (present : m.isNullMember = false) (refers : m.reference = some reference)
    (resolved : c.target reference = .ok d) :
    c.inherited? m = if d.kind.isRecordLike then some d else none := by
  rw [target] at resolved
  split at resolved
  · rename_i found isTarget
    cases resolved
    rw [inherited?, present, refers, Option.bind_some, isTarget]
    rfl
  · cases resolved

theorem first_base_member (members : List Schema) (d : Component)
    (isBase : c.firstBase? members = some d) : d ∈ c.components ∧ d.kind.isRecordLike = true := by
  obtain ⟨m, _, inherits⟩ := List.exists_of_findSome?_eq_some isBase
  rw [inherited?] at inherits
  split at inherits
  · cases inherits
  · obtain ⟨found, recordLike⟩ := Option.filter_eq_some_iff.mp inherits
    obtain ⟨name, _, isComponent⟩ := Option.bind_eq_some_iff.mp found
    exact ⟨(component_mem c name d isComponent).1, recordLike⟩

section Flatten

variable (mixin : Component → Except Error FlatRecord)

theorem members_first_base (members : List Schema) (flat flat' : FlatRecord)
    (free : flat.base = none) (made : c.flattenMembers mixin true flat members = .ok flat') :
    flat'.base = (c.firstBase? members).map (·.name) := by
  induction members generalizing flat with
  | nil =>
      cases made
      exact free
  | cons m rest ih =>
      rw [flatten_members_cons] at made
      obtain ⟨next, taken, made⟩ := ok_of_bind _ _ _ made
      rw [firstBase?, List.findSome?_cons]
      have step := member_taken_in c mixin true flat next m taken
      cases step with
      | null isNull =>
          rw [c.inherited_null m isNull]
          exact ih flat free made
      | inline all _ inline =>
          rw [c.inherited_inline m inline]
          exact ih (flat.overlay all) free made
      | base reference d present refers resolved _ _ recordLike =>
          rw [c.inherited_target m reference d present refers resolved, if_pos recordLike]
          exact members_keep_base c mixin true rest _ flat' (.inr (by simp)) made
      | mixin reference d all present refers resolved _ other =>
          have noRecord : ¬ d.kind.isRecordLike = true := fun recordLike =>
            other ⟨rfl, free, recordLike⟩
          rw [c.inherited_target m reference d present refers resolved, if_neg noRecord]
          exact ih (flat.overlay all) free made

end Flatten

theorem own_first_base (name : Option String) (s : Schema) (flat : FlatRecord)
    (made : c.flattenOwn name s = .ok flat) : flat.base = (c.firstBase? s.allOf).map (·.name) := by
  rw [flattenOwn, flatten_with_eq] at made
  obtain ⟨members, composed, made⟩ := ok_of_bind _ _ _ made
  cases made
  exact c.members_first_base _ s.allOf {} members rfl composed

theorem flatten_first_base (name : Option String) (s : Schema) (flat : FlatRecord)
    (made : c.flatten name s = .ok flat) : flat.base = (c.firstBase? s.allOf).map (·.name) :=
  c.own_first_base name s flat (own_of_flatten c name s flat made)

theorem base_of_first_base (regular : c.Regular) (base derived : Component)
    (member : base ∈ c.components) (inCatalog : derived ∈ c.components)
    (isBase : c.baseOf derived.name = .ok (some base.name)) :
    c.firstBase? derived.schema.allOf = some base := by
  rw [baseOf, component, regular.found derived inCatalog] at isBase
  obtain ⟨_, found, flattens⟩ := ok_of_bind _ _ _ isBase
  cases found
  obtain ⟨flat, flattened, made⟩ := ok_of_bind _ _ _ flattens
  have named : (c.firstBase? derived.schema.allOf).map (·.name) = some base.name := by
    rw [← c.own_first_base _ _ flat flattened]
    exact Except.ok.inj made
  obtain ⟨first, isFirst, sameName⟩ := Option.map_eq_some_iff.mp named
  have found := regular.found first (c.first_base_member _ first isFirst).1
  rw [sameName, regular.found base member] at found
  rw [isFirst, Option.some.inj found]

theorem first_base_refers (s : Schema) (base : Component) (isBase : c.firstBase? s.allOf = some base) :
    refersTo s base.name = true := by
  obtain ⟨m, isMember, inherits⟩ := List.exists_of_findSome?_eq_some isBase
  rw [inherited?] at inherits
  split at inherits
  · cases inherits
  · obtain ⟨found, _⟩ := Option.filter_eq_some_iff.mp inherits
    obtain ⟨name, refers, isComponent⟩ := Option.bind_eq_some_iff.mp found
    rw [← (component_mem c name base isComponent).2] at refers
    exact List.any_eq_true.mpr ⟨m, isMember, beq_iff_eq.mpr refers⟩

theorem variant_of_derived (regular : c.Regular) (base derived : Component)
    (inCatalog : derived ∈ c.components) (other : derived.name ≠ base.name)
    (refers : refersTo derived.schema base.name = true) :
    ⟨c.discriminatorValue base.name derived.name, derived.typeName⟩ ∈ c.hierarchyVariants base.name := by
  have derives : (derived.name != base.name && refersTo derived.schema base.name) = true := by
    rw [refers, Bool.and_true, bne_iff_ne]
    exact other
  refine List.mem_map.mpr ⟨derived.name, ?_, ?_⟩
  · exact List.mem_map_of_mem (List.mem_filter.mpr ⟨inCatalog, derives⟩)
  · rw [typeName, regular.found derived inCatalog]

theorem derived_component (regular : c.Regular) (base derived : String)
    (isDerived : derived ∈ c.derivedTypes base) : ∃ d ∈ c.components, d.name = derived
      ∧ d.name ≠ base ∧ refersTo d.schema base = true ∧ c.typeName derived = d.typeName := by
  obtain ⟨d, selected, rfl⟩ := List.mem_map.mp isDerived
  obtain ⟨member, derives⟩ := List.mem_filter.mp selected
  rw [Bool.and_eq_true, bne_iff_ne] at derives
  refine ⟨d, member, rfl, derives.1, derives.2, ?_⟩
  rw [typeName, regular.found d member]

end OpenApi.Catalog
