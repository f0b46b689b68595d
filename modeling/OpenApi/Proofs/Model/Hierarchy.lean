import OpenApi.Proofs.Component.Base
import OpenApi.Proofs.Model.Inventory
import OpenApi.Proofs.Model.Rounds

set_option autoImplicit false

namespace OpenApi

open Catalog Resolution

namespace RecordModel

structure Placed (c : Catalog) (name : String) (source : Option String) (s : Schema)
    (record : RecordModel) : Prop where
  named : record.name = name
  stems : record.sourceName = source
  based : record.base = (c.firstBase? s.allOf).map (·.typeName)
  discriminated : discriminatorOf c name source ((c.firstBase? s.allOf).map (·.name)) s
    = .ok record.discriminator

section Making

variable (c : Catalog) (regular : c.Regular) (name : String) (source : Option String) (s : Schema)

include regular

theorem record_placed : Ensures (fun _ => True) (RecordModel.ofSchema c name source s)
    fun _ record => record.Placed c name source s := by
  rw [RecordModel.ofSchema]
  refine ensures_bind_lift _ _ _ _ fun flat flattened => ?_
  refine ensures_bind_lift _ _ _ _ fun discriminator declared => ?_
  have flatBase := c.flatten_first_base source s flat flattened
  rw [flatBase] at declared
  have based : (flat.base.bind c.component?).map (·.typeName)
      = (c.firstBase? s.allOf).map (·.typeName) := by
    rw [flatBase]
    cases isBase : c.firstBase? s.allOf with
    | none => rfl
    | some d =>
        have member := (c.first_base_member s.allOf d isBase).1
        rw [Option.map_some, Option.bind_some, regular.found d member]
  apply ensures_later
  intro properties
  apply ensures_later
  intro additional
  exact ensures_pure _ _ _ fun r _ => ⟨rfl, rfl, based, declared⟩

theorem inherited_from_base (base : Component) (component : String) (d : Discriminator)
    (member : base ∈ c.components) (declared : base.schema.discriminator = some d) :
    inheritedDiscriminator c name (some component) (some base.name) = .ok (some {
      property := d.propertyName
      value := some (c.discriminatorValue base.name component) }) := by
  have declares : c.discriminator? base.name = some d := by
    rw [discriminator?, regular.found base member]
    exact declared
  obtain ⟨depth, enough⟩ : ∃ depth, c.components.length = depth + 1 :=
    Nat.exists_eq_add_one.mpr (List.length_pos_of_mem member)
  rw [inheritedDiscriminator, enough]
  simp [searchBases, declares]

end Making

end RecordModel

namespace Api

-- The records of the components so far, and none of a component that was made otherwise.
structure HoldsRecords (c : Catalog) (done : List Component) (api : Api) : Prop where
  present : ∀ d ∈ done, d.kind.isRecordLike = true →
    ∃ record ∈ api.records, record.Placed c d.typeName (some d.name) d.schema
  placed : ∀ record ∈ api.records, ∀ component ∈ record.sourceName,
    ∃ d ∈ c.components, d.name = component ∧ record.Placed c d.typeName (some d.name) d.schema

section Adding

variable (c : Catalog) (regular : c.Regular) (done : List Component) (api : Api)

section Types

include regular

theorem type_records (name : String) (source : Option String) (s : Schema) (kind : ComponentKind) :
    Ensures (fun _ => True) (api.addType c name source s kind)
      fun _ api' => ∃ records, api'.records = api.records ++ records
        ∧ (∀ record ∈ records, record.Placed c name source s)
        ∧ (kind.isRecordLike = true → records ≠ []) := by
  have record := RecordModel.record_placed c regular name source s
  have unchanged (other : kind.isRecordLike = false) : ∃ records,
      api.records = api.records ++ records ∧ (∀ record ∈ records, record.Placed c name source s)
        ∧ (kind.isRecordLike = true → records ≠ []) :=
    ⟨[], (List.append_nil _).symm, List.forall_mem_nil _, fun recordLike => by simp_all⟩
  cases kind with
  | record =>
      refine ensures_bind _ _ _ _ _ record fun record => ?_
      refine ensures_pure _ _ _ fun r placed => ?_
      exact ⟨[record], rfl, List.forall_mem_singleton.mpr placed, fun _ => List.cons_ne_nil _ _⟩
  | hierarchy =>
      refine ensures_bind _ _ _ _ _ record fun record => ?_
      refine ensures_pure _ _ _ fun r placed => ?_
      exact ⟨[record], rfl, List.forall_mem_singleton.mpr placed, fun _ => List.cons_ne_nil _ _⟩
  | enumeration => exact ensures_pure _ _ _ fun _ _ => unchanged rfl
  | tuple =>
      apply ensures_later
      intro tuple
      exact ensures_pure _ _ _ fun _ _ => unchanged rfl
  | union =>
      apply ensures_later
      intro union
      exact ensures_pure _ _ _ fun _ _ => unchanged rfl
  | «alias» => exact ensures_pure _ _ _ fun _ _ => unchanged rfl

theorem component_records (d : Component) (member : d ∈ c.components)
    (holds : HoldsRecords c done api) :
    Ensures (fun _ => True) (api.addType c d.typeName (some d.name) d.schema d.kind)
      fun _ api' => HoldsRecords c (done ++ [d]) api' := by
  intro r api' _ made
  obtain ⟨records, same, placed, some⟩ := type_records c regular api d.typeName (some d.name)
    d.schema d.kind r api' trivial made
  constructor
  · rw [same]
    refine List.forall_mem_append.mpr ⟨fun d' before recordLike => ?_, ?_⟩
    · obtain ⟨record, old, isPlaced⟩ := holds.present d' before recordLike
      exact ⟨record, List.mem_append_left _ old, isPlaced⟩
    · refine List.forall_mem_singleton.mpr fun recordLike => ?_
      obtain ⟨record, new⟩ := List.exists_mem_of_ne_nil records (some recordLike)
      exact ⟨record, List.mem_append_right _ new, placed record new⟩
  · rw [same]
    refine List.forall_mem_append.mpr ⟨holds.placed, fun record new component stems => ?_⟩
    have isPlaced := placed record new
    rw [isPlaced.stems] at stems
    cases stems
    exact ⟨d, member, rfl, isPlaced⟩

theorem synthesized_records (name : String) (s : Schema) (kind : ComponentKind)
    (holds : HoldsRecords c done api) : Ensures (fun _ => True) (api.addType c name none s kind)
      fun _ api' => HoldsRecords c done api' := by
  intro r api' _ made
  obtain ⟨records, same, placed, _⟩ := type_records c regular api name none s kind r api' trivial made
  constructor
  · intro d before recordLike
    obtain ⟨record, old, isPlaced⟩ := holds.present d before recordLike
    exact ⟨record, same ▸ List.mem_append_left _ old, isPlaced⟩
  · rw [same]
    refine List.forall_mem_append.mpr ⟨holds.placed, fun record new component stems => ?_⟩
    rw [(placed record new).stems] at stems
    cases stems

theorem resolution_records (rounds : Nat) : Ensures (fun _ => True) (resolution c rounds)
    fun _ outcome => ∀ api ∈ outcome, HoldsRecords c c.components api := by
  refine resolution_keeps c (HoldsRecords c) ?_ ?_ ?_ ?_ rounds
  · exact fun done api d member holds => component_records c regular done api d member holds
  · exact fun _ _ _ => ⟨List.forall_mem_nil _, List.forall_mem_nil _⟩
  · exact fun _ holds _ _ _ _ => ⟨holds.present, holds.placed⟩
  · exact fun api name s kind holds =>
      synthesized_records c regular c.components api name s kind holds

end Types

end Adding

section Subtypes

variable (c : Catalog) (regular : c.Regular) (record : RecordModel) (base : Component)
  (d : Discriminator) (declared : base.schema.discriminator = some d)

include declared

theorem base_discriminator
    (placed : record.Placed c base.typeName (some base.name) base.schema) :
    record.discriminator = some {
      property := d.propertyName
      mapping := c.hierarchyVariants base.name } := by
  have made := placed.discriminated
  rw [RecordModel.discriminatorOf, declared] at made
  exact (Except.ok.inj made).symm

include regular

theorem derived_discriminator (derived : Component) (member : base ∈ c.components)
    (placed : record.Placed c derived.typeName (some derived.name) derived.schema)
    (isBase : c.firstBase? derived.schema.allOf = some base)
    (undeclared : derived.schema.discriminator = none) :
    record.discriminator = some {
      property := d.propertyName
      value := some (c.discriminatorValue base.name derived.name) } := by
  have made := placed.discriminated
  have inherited := RecordModel.inherited_from_base c regular derived.typeName base derived.name d
    member declared
  rw [RecordModel.discriminatorOf, undeclared, isBase] at made
  exact (Except.ok.inj (inherited.symm.trans made)).symm

end Subtypes

def IsSubtype (record : RecordModel) (base property value : String) : Prop :=
  record.base = some base
    ∧ ∃ d, record.discriminator = some d ∧ d.property = property ∧ d.value = some value

theorem record_type_injective (document : Document) (config : Config) (d d' : Component)
    (member : d ∈ (ofDocument document config).components) (recordLike : d.kind.isRecordLike = true)
    (member' : d' ∈ (ofDocument document config).components)
    (recordLike' : d'.kind.isRecordLike = true) (sameType : d.typeName = d'.typeName) : d = d' := by
  have distinct := type_names_distinct document config
  rw [Catalog.typeNames] at distinct
  have named := d.kind.record_like_named recordLike
  have named' := d'.kind.record_like_named recordLike'
  exact List.inj_on_of_nodup_map distinct (List.mem_filter.mpr ⟨member, named⟩)
    (List.mem_filter.mpr ⟨member', named'⟩) sameType

theorem first_base_type_iff (document : Document) (config : Config) (base : Component)
    (member : base ∈ (ofDocument document config).components)
    (recordLike : base.kind.isRecordLike = true) (s : Schema) :
    ((ofDocument document config).firstBase? s.allOf).map (·.typeName) = some base.typeName
      ↔ (ofDocument document config).firstBase? s.allOf = some base := by
  constructor
  · intro isBase
    obtain ⟨first, isFirst, sameType⟩ := Option.map_eq_some_iff.mp isBase
    obtain ⟨firstMember, firstLike⟩ := Catalog.first_base_member _ s.allOf first isFirst
    rw [isFirst, record_type_injective document config first base firstMember firstLike member
      recordLike sameType]
  · intro isFirst
    rw [isFirst, Option.map_some]

def namedCat : Document where
  version := .v31
  contents := { components := { schemas := [
    ("Named", {
      type := some (.single "object")
      properties := [("name", { type := some (.single "string") })] }),
    ("Pet", {
      properties := [("kind", { type := some (.single "string") })]
      discriminator := some { propertyName := "kind", mapping := [] } }),
    ("Cat", {
      allOf := [
        { reference := some "#/components/schemas/Named" },
        { reference := some "#/components/schemas/Pet" }] })] } }

/-- A variant of a hierarchy stands for a component that refers to the base of it. Where the
component is a record and the base is the first record that it refers to, the model has a record of
the name of the variant that is derived from the base and has, unless it declares a discriminator
of its own, that of the base with the value of the variant. -/
theorem variants_are_subtypes (document : Document) (config : Config) (rounds : Nat) (api : Api)
    (keyed : document.isKeyed = true) (made : ofDocument? document config rounds = .ok (some api)) :
    let c := ofDocument document config
    ∀ base ∈ c.components, base.kind = .hierarchy →
      (∃ record ∈ api.records, record.sourceName = some base.name)
        ∧ ∀ record ∈ api.records, record.sourceName = some base.name →
          record.name = base.typeName ∧ ∃ own, record.discriminator = some own
            ∧ (base.schema.discriminator.map (·.propertyName)) = some own.property
            ∧ ∀ variant ∈ own.mapping, ∃ derived ∈ c.components,
              refersTo derived.schema base.name = true ∧ variant.typeName = derived.typeName
                ∧ (derived.kind.isRecordLike = true → ∃ subtype ∈ api.records,
                    subtype.name = variant.typeName
                    ∧ (subtype.base = some base.typeName
                        ↔ c.firstBase? derived.schema.allOf = some base)
                    ∧ (c.firstBase? derived.schema.allOf = some base →
                        derived.schema.discriminator = none →
                        IsSubtype subtype base.typeName own.property variant.value)) := by
  intro c base member isHierarchy
  have regular := regular_of_document document config keyed
  have holds := resolution_records c regular rounds {} (some api) trivial made api rfl
  have recordLike : base.kind.isRecordLike = true := by rw [isHierarchy]; rfl
  obtain ⟨d, declared⟩ := Option.isSome_iff_exists.mp (regular.declares base member isHierarchy)
  obtain ⟨record, isRecord, placed⟩ := holds.present base member recordLike
  refine ⟨⟨record, isRecord, placed.stems⟩, fun record isRecord stems => ?_⟩
  obtain ⟨base', member', sameName, placed⟩ := holds.placed record isRecord base.name stems
  obtain rfl : base = base' := by
    have found := regular.found base' member'
    rw [sameName, regular.found base member] at found
    exact Option.some.inj found
  have isOwn := base_discriminator c record base d declared placed
  refine ⟨placed.named, _, isOwn, by simp [declared], ?_⟩
  intro variant isVariant
  obtain ⟨name, isDerived, rfl⟩ := List.mem_map.mp isVariant
  obtain ⟨derived, inCatalog, rfl, _, refers, sameType⟩ :=
    c.derived_component regular base.name name isDerived
  refine ⟨derived, inCatalog, refers, sameType, fun derivedLike => ?_⟩
  obtain ⟨subtype, isSubtype, derivedPlaced⟩ := holds.present derived inCatalog derivedLike
  have isBase := first_base_type_iff document config base member recordLike derived.schema
  rw [← derivedPlaced.based] at isBase
  refine ⟨subtype, isSubtype, derivedPlaced.named.trans sameType.symm, isBase, ?_⟩
  intro isFirst undeclared
  have discriminated := derived_discriminator c regular subtype base d declared derived member
    derivedPlaced isFirst undeclared
  exact ⟨isBase.mpr isFirst, _, discriminated, rfl, rfl⟩

theorem pet_hierarchy_subtype : ∃ api, ofDocument? petHierarchy {} 2 = .ok (some api)
    ∧ ∃ subtype ∈ api.records, subtype.name = "Cat" ∧ IsSubtype subtype "Pet" "kind" "Cat" := by
  let place (record : RecordModel) := (record.sourceName, record.discriminator)
  obtain ⟨api, made, places⟩ : ∃ api, ofDocument? petHierarchy {} 2 = .ok (some api)
      ∧ api.records.map place
        = [(some "Pet", some { property := "kind", mapping := [⟨"Cat", "Cat"⟩] }),
          (some "Cat", some { property := "kind", value := some "Cat" }), (none, none)] :=
    ⟨_, rfl, by decide⟩
  let pet := (ofDocument petHierarchy {}).components.get ⟨0, by decide⟩
  obtain ⟨⟨record, isRecord, stems⟩, subtypes⟩ :=
    variants_are_subtypes petHierarchy {} 2 api (by decide) made pet List.mem_cons_self rfl
  obtain ⟨_, own, isOwn, _, variants⟩ := subtypes record isRecord stems
  have isPlace := List.mem_map_of_mem (f := place) isRecord
  have isPet : own = { property := "kind", mapping := [⟨"Cat", "Cat"⟩] } := by
    have petName : pet.name = "Pet" := rfl
    simpa [places, place, stems, isOwn, petName] using isPlace
  subst isPet
  obtain ⟨derived, member, refers, _, isSubtype⟩ := variants ⟨"Cat", "Cat"⟩ List.mem_cons_self
  rcases List.mem_cons.mp member with rfl | later
  · exact absurd refers (by decide)
  · obtain rfl := List.mem_singleton.mp later
    obtain ⟨subtype, isRecord, named, _, subtyped⟩ := isSubtype rfl
    exact ⟨api, made, subtype, isRecord, named, subtyped rfl rfl⟩

-- The cat is a variant of the pet, but its record is derived from the plain record.
theorem named_cat_no_subtype : ∃ api, ofDocument? namedCat {} 2 = .ok (some api)
    ∧ (∃ record ∈ api.records, record.name = "Pet"
      ∧ record.discriminator = some { property := "kind", mapping := [⟨"Cat", "Cat"⟩] })
    ∧ ¬ ∃ subtype ∈ api.records, subtype.name = "Cat" ∧ IsSubtype subtype "Pet" "kind" "Cat" := by
  let place (record : RecordModel) := (record.name, record.base, record.discriminator)
  obtain ⟨api, made, places⟩ : ∃ api, ofDocument? namedCat {} 2 = .ok (some api)
      ∧ api.records.map place = [("Named", none, none),
        ("Pet", none, some { property := "kind", mapping := [⟨"Cat", "Cat"⟩] }),
        ("Cat", some "Named", none)] := ⟨_, rfl, by decide⟩
  refine ⟨api, made, ?_, ?_⟩
  · have isPlace : ("Pet", none, some { property := "kind", mapping := [⟨"Cat", "Cat"⟩] })
        ∈ api.records.map place := by
      rw [places]
      exact List.mem_cons_of_mem _ List.mem_cons_self
    obtain ⟨record, isRecord, same⟩ := List.mem_map.mp isPlace
    simp only [place, Prod.mk.injEq] at same
    exact ⟨record, isRecord, same.1, same.2.2⟩
  · rintro ⟨subtype, isRecord, named, based, _⟩
    have isPlace := List.mem_map_of_mem (f := place) isRecord
    rw [places] at isPlace
    simp [place, named, based] at isPlace

end Api

end OpenApi
