import OpenApi.Proofs.Model.Hierarchy

set_option autoImplicit false

namespace OpenApi

open Catalog Resolution

theorem UnionModel.own_kind (c : Catalog) (name : String) (s : Schema) :
    Ensures (fun _ => True) (ofSchema c name s) fun _ union => union.kind ≠ .inheritance := by
  rw [ofSchema]
  apply ensures_later
  intro shape
  apply ensures_later
  intro members
  refine ensures_pure _ _ _ fun _ _ => ?_
  cases shape.exclusive <;> rintro ⟨⟩

namespace Api

structure HoldsHierarchies (c : Catalog) (done : List Component) (api : Api) : Prop where
  present : ∀ d ∈ done, d.kind = .hierarchy →
    UnionModel.ofHierarchy c d.typeName d.name d.schema ∈ api.unions
  made : ∀ union ∈ api.unions, union.kind = .inheritance → ∃ d ∈ c.components,
    d.kind = .hierarchy ∧ union = UnionModel.ofHierarchy c d.typeName d.name d.schema

section Adding

variable (c : Catalog) (done : List Component) (api : Api)

theorem type_unions (name : String) (source : Option String) (s : Schema) (kind : ComponentKind) :
    Ensures (fun _ => True) (api.addType c name source s kind)
      fun _ api' => ∃ unions, api'.unions = api.unions ++ unions
        ∧ (kind = .hierarchy →
          unions = source.toList.map fun component => UnionModel.ofHierarchy c name component s)
        ∧ (kind ≠ .hierarchy → ∀ union ∈ unions, union.kind ≠ .inheritance) := by
  have unchanged (other : kind ≠ .hierarchy) : ∃ unions, api.unions = api.unions ++ unions
      ∧ (kind = .hierarchy →
        unions = source.toList.map fun component => UnionModel.ofHierarchy c name component s)
      ∧ (kind ≠ .hierarchy → ∀ union ∈ unions, union.kind ≠ .inheritance) :=
    ⟨[], (List.append_nil _).symm, fun same => absurd same other, fun _ => List.forall_mem_nil _⟩
  cases kind with
  | hierarchy =>
      apply ensures_later
      intro record
      exact ensures_pure _ _ _ fun _ _ => ⟨_, rfl, fun _ => rfl, fun other => absurd rfl other⟩
  | union =>
      refine ensures_known _ _ _ _ _ (UnionModel.own_kind c name s) fun union isOwn => ?_
      refine ensures_pure _ _ _ fun _ _ => ⟨[union], rfl, nofun, fun _ => ?_⟩
      exact List.forall_mem_singleton.mpr isOwn
  | enumeration | «alias» => exact ensures_pure _ _ _ fun _ _ => unchanged nofun
  | record | tuple =>
      apply ensures_later
      intro added
      exact ensures_pure _ _ _ fun _ _ => unchanged nofun

theorem component_hierarchies (d : Component) (member : d ∈ c.components)
    (holds : HoldsHierarchies c done api) :
    Ensures (fun _ => True) (api.addType c d.typeName (some d.name) d.schema d.kind)
      fun _ api' => HoldsHierarchies c (done ++ [d]) api' := by
  intro r api' _ made
  obtain ⟨unions, same, isHierarchy, isOther⟩ := type_unions c api d.typeName (some d.name)
    d.schema d.kind r api' trivial made
  constructor
  · rw [same]
    refine List.forall_mem_append.mpr ⟨fun d' before hierarchical => ?_, ?_⟩
    · exact List.mem_append_left _ (holds.present d' before hierarchical)
    · refine List.forall_mem_singleton.mpr fun hierarchical => List.mem_append_right _ ?_
      rw [isHierarchy hierarchical]
      exact List.mem_singleton_self _
  · rw [same]
    refine List.forall_mem_append.mpr ⟨holds.made, fun union new inherits => ?_⟩
    by_cases hierarchical : d.kind = .hierarchy
    · rw [isHierarchy hierarchical] at new
      exact ⟨d, member, hierarchical, List.mem_singleton.mp new⟩
    · exact absurd inherits (isOther hierarchical union new)

theorem synthesized_hierarchies (name : String) (s : Schema) (kind : ComponentKind)
    (holds : HoldsHierarchies c done api) :
    Ensures (fun _ => True) (api.addType c name none s kind)
      fun _ api' => HoldsHierarchies c done api' := by
  intro r api' _ made
  obtain ⟨unions, same, isHierarchy, isOther⟩ :=
    type_unions c api name none s kind r api' trivial made
  constructor
  · intro d before hierarchical
    rw [same]
    exact List.mem_append_left _ (holds.present d before hierarchical)
  · rw [same]
    refine List.forall_mem_append.mpr ⟨holds.made, fun union new inherits => ?_⟩
    by_cases hierarchical : kind = .hierarchy
    · rw [isHierarchy hierarchical] at new
      cases new
    · exact absurd inherits (isOther hierarchical union new)

theorem resolution_hierarchies (rounds : Nat) : Ensures (fun _ => True) (resolution c rounds)
    fun _ outcome => ∀ api ∈ outcome, HoldsHierarchies c c.components api := by
  refine resolution_keeps c (HoldsHierarchies c) ?_ ?_ ?_ ?_ rounds
  · exact fun done api d member holds => component_hierarchies c done api d member holds
  · exact fun _ _ _ => ⟨List.forall_mem_nil _, List.forall_mem_nil _⟩
  · exact fun _ holds _ _ _ _ => ⟨holds.present, holds.made⟩
  · exact fun api name s kind holds => synthesized_hierarchies c c.components api name s kind holds

end Adding

section Records

variable (c : Catalog) (done : List Component) (api : Api) (holds : HoldsRecords c done api)
  (d : Component)

include holds

theorem component_has_record (isDone : d ∈ done) (recordLike : d.kind.isRecordLike = true) :
    ∃ record ∈ api.records, record.sourceName = some d.name := by
  obtain ⟨record, isRecord, placed⟩ := holds.present d isDone recordLike
  exact ⟨record, isRecord, placed.stems⟩

theorem component_record_placed (regular : c.Regular) (member : d ∈ c.components)
    (record : RecordModel) (isRecord : record ∈ api.records)
    (stems : record.sourceName = some d.name) :
    record.Placed c d.typeName (some d.name) d.schema := by
  obtain ⟨d', member', sameName, placed⟩ := holds.placed record isRecord d.name stems
  have found := regular.found d' member'
  rw [sameName, regular.found d member] at found
  rwa [Option.some.inj found]

end Records

structure Agree (property : String) (record baseRecord : RecordModel) (union : UnionModel) : Prop where
  based : record.base = some baseRecord.name
  discriminated : ∃ value mapping,
    record.discriminator = some { property, value := some value, mapping := [] }
      ∧ baseRecord.discriminator = some { property, value := none, mapping }
      ∧ union.discriminator = some ⟨property, mapping⟩
      ∧ ⟨value, record.name⟩ ∈ mapping
  abstractRecord : baseRecord.isAbstract = true
  abstractUnion : union.isAbstract = true

section Agreement

variable (c : Catalog) (regular : c.Regular) (base derived : Component) (d : Discriminator)
  (member : base ∈ c.components) (inCatalog : derived ∈ c.components)
  (declared : base.schema.discriminator = some d) (undeclared : derived.schema.discriminator = none)
  (isBase : c.firstBase? derived.schema.allOf = some base)

include regular member inCatalog declared undeclared isBase

theorem placed_agree (record baseRecord : RecordModel)
    (placed : record.Placed c derived.typeName (some derived.name) derived.schema)
    (basePlaced : baseRecord.Placed c base.typeName (some base.name) base.schema) :
    Agree d.propertyName record baseRecord
      (UnionModel.ofHierarchy c base.typeName base.name base.schema) := by
  have other : derived.name ≠ base.name := by
    intro sameName
    have found := regular.found derived inCatalog
    rw [sameName, regular.found base member] at found
    rw [Option.some.inj found, undeclared] at declared
    cases declared
  have isVariant := c.variant_of_derived regular base derived inCatalog other
    (c.first_base_refers derived.schema base isBase)
  have baseDiscriminator := base_discriminator c baseRecord base d declared basePlaced
  have lists : (c.hierarchyVariants base.name).isEmpty = false :=
    List.isEmpty_eq_false_iff.mpr (List.ne_nil_of_mem isVariant)
  constructor
  · rw [placed.based, isBase, basePlaced.named]
    rfl
  · refine ⟨_, _, derived_discriminator c regular record base d declared derived member placed isBase
      undeclared, baseDiscriminator, ?_, ?_⟩
    · rw [UnionModel.ofHierarchy, declared]
      rfl
    · rw [placed.named]
      exact isVariant
  · rw [RecordModel.isAbstract, baseDiscriminator]
    simp [lists]
  · rw [UnionModel.ofHierarchy, lists]
    rfl

end Agreement

def kittyHierarchy : Document where
  version := .v31
  contents := { components := { schemas := [
    ("Cat", {
      allOf := [
        { nullable := some true },
        { reference := some "#/components/schemas/P%65t" },
        { properties := [("lives", { type := some (.single "integer") })] }] }),
    ("Pet", {
      properties := [("kind", { type := some (.single "string") })]
      discriminator := some {
        propertyName := "kind"
        mapping := [("kitty", "#/components/schemas/C%61t"), ("cat", "Cat")] } })] } }

/-- A component without a discriminator of its own whose base is the base of a hierarchy has a record
below the record of the base: with the discriminator of the base, one value of it and no mapping. The
mapping of the base has that value for that record and is the one of the union of the hierarchy, and
both the record of the base and the union are abstract. -/
theorem derived_records_agree (document : Document) (config : Config) (rounds : Nat) (api : Api)
    (keyed : document.isKeyed = true) (made : ofDocument? document config rounds = .ok (some api)) :
    let c := ofDocument document config
    ∀ base ∈ c.components, base.kind = .hierarchy →
      ∀ derived ∈ c.components, derived.kind.isRecordLike = true →
        derived.schema.discriminator = none → c.baseOf derived.name = .ok (some base.name) →
        ∃ d, base.schema.discriminator = some d
          ∧ (∃ record ∈ api.records, record.sourceName = some derived.name)
          ∧ (∃ baseRecord ∈ api.records, baseRecord.sourceName = some base.name)
          ∧ (∃ union ∈ api.unions, union.kind = .inheritance ∧ union.name = base.typeName)
          ∧ ∀ record ∈ api.records, record.sourceName = some derived.name →
            ∀ baseRecord ∈ api.records, baseRecord.sourceName = some base.name →
              ∀ union ∈ api.unions, union.kind = .inheritance → union.name = base.typeName →
                record.name = derived.typeName ∧ baseRecord.name = base.typeName
                  ∧ Agree d.propertyName record baseRecord union := by
  intro c base member isHierarchy derived inCatalog derivedLike undeclared derives
  have regular := regular_of_document document config keyed
  have records := resolution_records c regular rounds {} (some api) trivial made api rfl
  have hierarchies := resolution_hierarchies c rounds {} (some api) trivial made api rfl
  have baseLike : base.kind.isRecordLike = true := by rw [isHierarchy]; rfl
  obtain ⟨d, declared⟩ := Option.isSome_iff_exists.mp (regular.declares base member isHierarchy)
  have isBase := c.base_of_first_base regular base derived member inCatalog derives
  refine ⟨d, declared, component_has_record c _ api records derived inCatalog derivedLike,
    component_has_record c _ api records base member baseLike, ?_, ?_⟩
  · exact ⟨_, hierarchies.present base member isHierarchy, rfl, rfl⟩
  · intro record isRecord stems baseRecord isBaseRecord baseStems union isUnion inherits named
    obtain ⟨owner, inComponents, ownsHierarchy, rfl⟩ := hierarchies.made union isUnion inherits
    have ownerLike : owner.kind.isRecordLike = true := by rw [ownsHierarchy]; rfl
    obtain rfl := record_type_injective document config owner base inComponents ownerLike member
      baseLike named
    have recordPlaced :=
      component_record_placed c _ api records derived regular inCatalog record isRecord stems
    have basePlaced :=
      component_record_placed c _ api records owner regular member baseRecord isBaseRecord baseStems
    exact ⟨recordPlaced.named, basePlaced.named, placed_agree c regular owner derived d member
      inCatalog declared undeclared isBase record baseRecord recordPlaced basePlaced⟩

theorem kitty_agrees : ∃ api, ofDocument? kittyHierarchy {} 2 = .ok (some api)
    ∧ ∃ record ∈ api.records, ∃ baseRecord ∈ api.records, ∃ union ∈ api.unions,
      record.name = "Cat" ∧ Agree "kind" record baseRecord union
        ∧ baseRecord.discriminator
          = some { property := "kind", mapping := [⟨"kitty", "Cat"⟩] } := by
  let components := (ofDocument kittyHierarchy {}).components
  let cat := components.get ⟨0, by decide⟩
  let pet := components.get ⟨1, by decide⟩
  obtain ⟨api, made, discriminators⟩ : ∃ api, ofDocument? kittyHierarchy {} 2 = .ok (some api)
      ∧ ∀ record ∈ api.records, record.sourceName = some "Pet" →
        record.discriminator = some { property := "kind", mapping := [⟨"kitty", "Cat"⟩] } :=
    ⟨_, rfl, by decide⟩
  obtain ⟨d, declared, ⟨record, isRecord, stems⟩, ⟨baseRecord, isBaseRecord, baseStems⟩,
      ⟨union, isUnion, inherits, named⟩, agree⟩ :=
    derived_records_agree kittyHierarchy {} 2 api (by decide) made
      pet (List.get_mem components _) rfl cat (List.get_mem components _) rfl rfl rfl
  cases declared
  obtain ⟨isName, _, agrees⟩ :=
    agree record isRecord stems baseRecord isBaseRecord baseStems union isUnion inherits named
  exact ⟨api, made, record, isRecord, baseRecord, isBaseRecord, union, isUnion, isName, agrees,
    discriminators baseRecord isBaseRecord baseStems⟩

end Api

end OpenApi
