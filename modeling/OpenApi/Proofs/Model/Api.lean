import OpenApi.Proofs.Model.Operation

set_option autoImplicit false

namespace OpenApi

open Catalog Resolution

structure Declaration where
  name : String
  schema : Schema
  kind : ComponentKind

def Component.declaration (d : Component) : Declaration := ⟨d.typeName, d.schema, d.kind⟩

def SynthesizedType.declaration (t : SynthesizedType) : Declaration := ⟨t.name, t.schema, t.kind⟩

def Catalog.declarations (c : Catalog) (types : List SynthesizedType) : List Declaration :=
  c.components.map Component.declaration ++ types.map SynthesizedType.declaration

structure UnionModel.Known (c : Catalog) (r : Registry) (declared : List Declaration)
    (union : UnionModel) : Prop where
  members : c.KnowsAll r union.members
  variants : (∀ v ∈ union.variants, v.typeName ∈ c.typeNames)
    ∨ ∃ d ∈ declared, d.kind = .union ∧ c.ShowsTargets d.schema r union.variants

namespace Api

structure Holds (c : Catalog) (declared : List Declaration) (r : Registry) (api : Api) : Prop where
  records : ∀ record ∈ api.records, record.Known c r
  tuples : ∀ tuple ∈ api.tuples, c.KnowsAll r tuple.types
  unions : ∀ union ∈ api.unions, union.Known c r declared
  operations : c.KnowsAll r api.operationTypes
  named : ∀ d ∈ declared, d.kind.isNamed = true → d.name ∈ api.typeNames
  shown : ∀ d ∈ declared, d.kind = .union →
    ∃ union ∈ api.unions, c.ShowsTargets d.schema r union.variants

section Adding

variable (c : Catalog) (declared : List Declaration) (api : Api)

theorem holds_lasting : Lasting (Holds c declared · api) := by
  intro r r' grown holds
  constructor
  · exact fun record member => record.known_lasting c r r' grown (holds.records record member)
  · exact fun tuple member => c.knows_all_lasting tuple.types r r' grown (holds.tuples tuple member)
  · intro union member
    have known := holds.unions union member
    refine ⟨c.knows_all_lasting union.members r r' grown known.members, ?_⟩
    refine known.variants.imp_right fun ⟨d, isDeclared, isUnion, shows⟩ => ⟨d, isDeclared, isUnion, ?_⟩
    exact shows_targets_lasting c d.schema union.variants r r' grown shows
  · exact c.knows_all_lasting api.operationTypes r r' grown holds.operations
  · exact holds.named
  · intro d isDeclared isUnion
    obtain ⟨union, member, shows⟩ := holds.shown d isDeclared isUnion
    exact ⟨union, member, shows_targets_lasting c d.schema union.variants r r' grown shows⟩

theorem known_longer (more : List Declaration) (r : Registry) (union : UnionModel)
    (known : union.Known c r declared) : union.Known c r (declared ++ more) := by
  refine ⟨known.members, known.variants.imp_right ?_⟩
  exact fun ⟨d, isDeclared, isUnion, shows⟩ =>
    ⟨d, List.mem_append_left _ isDeclared, isUnion, shows⟩

theorem holds_more (r : Registry) (holds : Holds c declared r api) (d : Declaration)
    (records : List RecordModel) (enumerations : List EnumModel) (tuples : List TupleModel)
    (unions : List UnionModel) (recordsKnown : ∀ record ∈ records, record.Known c r)
    (tuplesKnown : ∀ tuple ∈ tuples, c.KnowsAll r tuple.types)
    (unionsKnown : ∀ union ∈ unions, union.Known c r (declared ++ [d]))
    (named : d.kind.isNamed = true → d.name ∈ records.map (·.name) ++ enumerations.map (·.name)
      ++ tuples.map (·.name) ++ unions.map (·.name))
    (shown : d.kind = .union → ∃ union ∈ unions, c.ShowsTargets d.schema r union.variants) :
    Holds c (declared ++ [d]) r { api with
      records := api.records ++ records
      enumerations := api.enumerations ++ enumerations
      tuples := api.tuples ++ tuples
      unions := api.unions ++ unions } := by
  constructor
  · exact List.forall_mem_append.mpr ⟨holds.records, recordsKnown⟩
  · exact List.forall_mem_append.mpr ⟨holds.tuples, tuplesKnown⟩
  · refine List.forall_mem_append.mpr ⟨fun union member => ?_, unionsKnown⟩
    exact known_longer c declared [d] r union (holds.unions union member)
  · exact holds.operations
  · refine List.forall_mem_append.mpr ⟨fun d' isDeclared isNamed => ?_, ?_⟩
    · have old := holds.named d' isDeclared isNamed
      simp only [typeNames, List.map_append, List.mem_append] at old ⊢
      tauto
    · refine List.forall_mem_singleton.mpr fun isNamed => ?_
      have new := named isNamed
      simp only [typeNames, List.map_append, List.mem_append] at new ⊢
      tauto
  · refine List.forall_mem_append.mpr ⟨fun d' isDeclared isUnion => ?_, ?_⟩
    · obtain ⟨union, member, shows⟩ := holds.shown d' isDeclared isUnion
      exact ⟨union, List.mem_append_left _ member, shows⟩
    · refine List.forall_mem_singleton.mpr fun isUnion => ?_
      obtain ⟨union, member, shows⟩ := shown isUnion
      exact ⟨union, List.mem_append_right _ member, shows⟩

end Adding

section AddType

variable (c : Catalog) (regular : c.Regular) (declared : List Declaration) (api : Api)
  (name : String) (source : Option String) (s : Schema)

theorem record_added (kind : ComponentKind) (other : kind ≠ .union) (unions : List UnionModel)
    (r : Registry) (record : RecordModel) (isName : record.name = name)
    (known : record.Known c r)
    (unionsKnown : ∀ union ∈ unions, union.Known c r (declared ++ [⟨name, s, kind⟩]))
    (holds : Holds c declared r api) :
    Holds c (declared ++ [⟨name, s, kind⟩]) r
      { api with records := api.records ++ [record], unions := api.unions ++ unions } := by
  have more := holds_more c declared api r holds ⟨name, s, kind⟩ [record] [] [] unions
    (List.forall_mem_singleton.mpr known) (List.forall_mem_nil _) unionsKnown
    (fun _ => by simp [isName]) (fun isUnion => absurd isUnion other)
  simpa only [List.append_nil] using more

include regular

theorem add_type_lawful (isSource : c.IsSource source s) (kind : ComponentKind)
    (declares : kind = .hierarchy → ∀ name ∈ source, s.discriminator.isSome = true) :
    Lawful c AnySchema (api.addType c name source s kind) fun r api' =>
      Holds c declared r api → Holds c (declared ++ [⟨name, s, kind⟩]) r api' := by
  have made : Lawful c AnySchema (RecordModel.ofSchema c name source s)
      fun r record => record.name = name ∧ record.Known c r :=
    RecordModel.record_lawful c name source s regular isSource
  have lasting : ∀ record : RecordModel, Lasting fun r => record.name = name ∧ record.Known c r :=
    fun record r r' grown holds => ⟨holds.1, record.known_lasting c r r' grown holds.2⟩
  cases kind with
  | record =>
      refine lawful_bind c AnySchema _ _ _ _ lasting made fun record => ?_
      refine lawful_pure c AnySchema _ _ fun r known holds => ?_
      have added := record_added c declared api name s .record (by decide) [] r record known.1
        known.2 (List.forall_mem_nil _) holds
      simpa only [List.append_nil] using added
  | hierarchy =>
      refine lawful_bind c AnySchema _ _ _ _ lasting made fun record => ?_
      refine lawful_pure c AnySchema _ _ fun r known holds => ?_
      refine record_added c declared api name s .hierarchy (by decide) _ r record known.1 known.2 ?_
        holds
      intro union member
      obtain ⟨component, present, rfl⟩ := List.mem_map.mp member
      obtain ⟨d, isComponent, rfl, rfl⟩ := isSource component (Option.mem_toList.mp present)
      have declaresIt := declares rfl d.name (Option.mem_toList.mp present)
      obtain ⟨membersKnown, variantsNamed⟩ :=
        UnionModel.hierarchy_known c name regular d isComponent declaresIt r
      exact ⟨membersKnown, .inl variantsNamed⟩
  | enumeration =>
      refine lawful_pure c AnySchema _ _ fun r holds => ?_
      have more := holds_more c declared api r holds ⟨name, s, .enumeration⟩ []
        [EnumModel.ofSchema name s] [] [] (List.forall_mem_nil _) (List.forall_mem_nil _)
        (List.forall_mem_nil _) (fun _ => by simp [EnumModel.ofSchema]) (fun isUnion => by cases isUnion)
      simpa only [List.append_nil] using more
  | tuple =>
      refine lawful_bind c AnySchema _ _ _ _ ?_ (TupleModel.tuple_lawful c name s) fun tuple => ?_
      · exact fun tuple r r' grown holds =>
          ⟨holds.1, c.knows_all_lasting tuple.types r r' grown holds.2⟩
      refine lawful_pure c AnySchema _ _ fun r known holds => ?_
      have more := holds_more c declared api r holds ⟨name, s, .tuple⟩ [] [] [tuple] []
        (List.forall_mem_nil _) (List.forall_mem_singleton.mpr known.2) (List.forall_mem_nil _)
        (fun _ => by simp [known.1]) (fun isUnion => by cases isUnion)
      simpa only [List.append_nil] using more
  | union =>
      refine lawful_bind c AnySchema _ _ _ _ ?_ (UnionModel.union_lawful c name s) fun union => ?_
      · exact fun union r r' grown holds =>
          ⟨holds.1, c.knows_all_lasting union.members r r' grown holds.2.1,
            shows_targets_lasting c s union.variants r r' grown holds.2.2⟩
      refine lawful_pure c AnySchema _ _ fun r ⟨isName, membersKnown, shows⟩ holds => ?_
      have known : union.Known c r (declared ++ [⟨name, s, .union⟩]) :=
        ⟨membersKnown, .inr ⟨_, List.mem_append_right _ (List.mem_singleton_self _), rfl, shows⟩⟩
      have more := holds_more c declared api r holds ⟨name, s, .union⟩ [] [] [] [union]
        (List.forall_mem_nil _) (List.forall_mem_nil _) (List.forall_mem_singleton.mpr known)
        (fun _ => by simp [isName]) (fun _ => ⟨union, List.mem_singleton_self union, shows⟩)
      simpa only [List.append_nil] using more
  | «alias» =>
      refine lawful_pure c AnySchema _ _ fun r holds => ?_
      have more := holds_more c declared api r holds ⟨name, s, .alias⟩ [] [] [] []
        (List.forall_mem_nil _) (List.forall_mem_nil _) (List.forall_mem_nil _)
        (fun isNamed => by cases isNamed) (fun isUnion => by cases isUnion)
      simpa only [List.append_nil] using more

end AddType

-- The model holds what was declared, all registered types are named, and those that were taken are
-- known.
structure Stage (c : Catalog) (declared : List Declaration) (taken : List SynthesizedType)
    (api : Api) (r : Registry) : Prop where
  holds : Holds c declared r api
  kinds : ∀ t ∈ r.types, t.kind.isNamed = true
  taken : r.taken = taken

section Whole

variable (c : Catalog) (regular : c.Regular) (declared : List Declaration)
  (taken : List SynthesizedType) (api : Api)

theorem stage_kept (r r' : Registry) (grown : Registers c AnySchema r r')
    (stage : Stage c declared taken api r) : Stage c declared taken api r' where
  holds := holds_lasting c declared api r r' (registers_extends c AnySchema r r' grown) stage.holds
  kinds t member := by
    rcases registers_mem c AnySchema r r' grown t member with old | ⟨_, named⟩
    · exact stage.kinds t old
    · exact named
  taken := (registers_taken c AnySchema r r' grown).trans stage.taken

theorem operations_ensures : Ensures (Stage c declared taken api) (api.addOperations c)
    fun r api' => Stage c declared taken api' r := by
  have made : Lawful c AnySchema (OperationModel.all c)
      fun r models => ∀ o ∈ models, c.KnowsAll r o.types :=
    OperationModel.operations_lawful c [] c.document.operations
  refine ensures_bind _ _ _ _ _ (ensures_lawful c AnySchema _ _ _ made
    (stage_kept c declared taken api)) fun operations => ?_
  refine ensures_bind_lift _ _ _ _ fun failures _ => ensures_pure _ _ _ fun r ⟨stage, known⟩ => ?_
  refine ⟨⟨stage.holds.records, stage.holds.tuples, stage.holds.unions, ?_, stage.holds.named,
    stage.holds.shown⟩, stage.kinds, stage.taken⟩
  intro t member
  have inOperation : ∃ o ∈ operations, t ∈ o.types := by
    simp only [operationTypes, List.mem_append] at member
    rcases member with (isResult | isHandler) | isClient
    · obtain ⟨result, inResults, inResult⟩ := List.mem_flatMap.mp isResult
      obtain ⟨o, isOperation, rfl⟩ := List.mem_map.mp inResults
      exact ⟨o, isOperation, List.mem_append_right _ inResult⟩
    · obtain ⟨h, isInterface, inMethods⟩ := List.mem_flatMap.mp isHandler
      exact handlers_types operations h isInterface t inMethods
    · obtain ⟨k, isModel, inMethods⟩ := List.mem_flatMap.mp isClient
      exact clients_types operations _ k isModel t inMethods
  obtain ⟨o, isOperation, inTypes⟩ := inOperation
  exact known o isOperation t inTypes

section Types

include regular

theorem type_ensures (name : String) (source : Option String) (s : Schema)
    (isSource : c.IsSource source s) (kind : ComponentKind)
    (declares : kind = .hierarchy → ∀ name ∈ source, s.discriminator.isSome = true) :
    Ensures (Stage c declared taken api) (api.addType c name source s kind)
      fun r api' => Stage c (declared ++ [⟨name, s, kind⟩]) taken api' r := by
  have lawful := add_type_lawful c regular declared api name source s isSource kind declares
  intro r api' stage found
  obtain ⟨kept, added⟩ := ensures_lawful c AnySchema _ _ _ lawful
    (stage_kept c declared taken api) r api' stage found
  exact ⟨added kept.holds, kept.kinds, kept.taken⟩

theorem components_ensures (components : List Component) (members : components ⊆ c.components) :
    Ensures (Stage c declared taken api) (api.addComponents c components)
      fun r api' => Stage c (declared ++ components.map Component.declaration) taken api' r := by
  induction components generalizing declared api with
  | nil => exact ensures_pure _ _ api fun r stage => by simpa using stage
  | cons d rest ih =>
      have isComponent : d ∈ c.components := members List.mem_cons_self
      have isSource : c.IsSource (some d.name) d.schema := by
        intro name present
        obtain rfl := Option.some.inj present
        exact ⟨d, isComponent, rfl, rfl⟩
      rw [List.map_cons, List.append_cons]
      refine ensures_bind _ _ _ _ _ (type_ensures c regular declared taken api d.typeName
        (some d.name) d.schema isSource d.kind fun isHierarchy _ _ =>
          regular.declares d isComponent isHierarchy) fun api' => ?_
      exact ih _ api' fun d' inRest => members (List.mem_cons_of_mem d inRest)

theorem synthesized_ensures (types : List SynthesizedType) :
    Ensures (Stage c declared taken api) (api.addSynthesized c types)
      fun r api' => Stage c (declared ++ types.map SynthesizedType.declaration) taken api' r := by
  induction types generalizing declared api with
  | nil => exact ensures_pure _ _ api fun r stage => by simpa using stage
  | cons t rest ih =>
      rw [List.map_cons, List.append_cons]
      refine ensures_bind _ _ _ _ _ (type_ensures c regular declared taken api t.name none t.schema
        (fun _ absent => by cases absent) t.kind fun _ _ absent => by cases absent) fun api' => ?_
      exact ih _ api'

end Types

theorem taken_ensures : Ensures (Stage c declared taken api) Resolution.takePending
    fun r pending => Stage c declared (taken ++ pending) api r ∧ r.pending = [] := by
  intro r pending stage found
  obtain rfl : r.pending = pending := Except.ok.inj found
  have sameTypes := pending_taken_types r
  refine ⟨⟨?_, ?_, ?_⟩, rfl⟩
  · have grown : r.Extends (after Resolution.takePending r) := by
      rw [Registry.Extends, sameTypes]
    exact holds_lasting c declared api r _ grown stage.holds
  · rw [sameTypes]
    exact stage.kinds
  · exact congrArg (· ++ r.pending) stage.taken

def Finished (c : Catalog) (r : Registry) (api : Api) : Prop :=
  r.pending = [] ∧ Stage c (c.declarations r.types) r.types api r

theorem finished_of_stage (r : Registry) (stage : Stage c (c.declarations taken) taken api r)
    (nothing : r.pending = []) : Finished c r api := by
  have allTaken : r.types = taken := by rw [Registry.types, nothing, List.append_nil, stage.taken]
  rw [Finished, allTaken]
  exact ⟨nothing, stage⟩

include regular

-- A round takes what is pending and adds it, and what it synthesizes is pending after it.
theorem rounds_ensures (rounds : Nat) :
    Ensures (Stage c (c.declarations taken) taken api) (addRounds c rounds api)
      fun r api' => ∀ a ∈ api', Finished c r a := by
  induction rounds generalizing taken api with
  | zero =>
      intro r outcome stage found a present
      obtain rfl : (if r.pending.isEmpty then some api else none) = outcome := Except.ok.inj found
      split at present
      · rename_i nothing
        obtain rfl := Option.some.inj present
        exact finished_of_stage c taken api r stage (List.isEmpty_iff.mp nothing)
      · cases present
  | succ rounds ih =>
      refine ensures_bind _ _ _ _ _ (taken_ensures c _ taken api) fun pending => ?_
      split
      · rename_i nothing
        refine ensures_pure _ _ _ fun r ⟨stage, nothingLeft⟩ a present => ?_
        obtain rfl := Option.some.inj present
        rw [List.isEmpty_iff.mp nothing, List.append_nil] at stage
        exact finished_of_stage c taken api r stage nothingLeft
      · have added := synthesized_ensures c regular (c.declarations taken) (taken ++ pending) api pending
        have same : c.declarations taken ++ pending.map SynthesizedType.declaration
            = c.declarations (taken ++ pending) := by
          simp only [declarations, List.map_append, List.append_assoc]
        rw [same] at added
        refine ensures_bind (fun r api' => Stage c (c.declarations (taken ++ pending))
          (taken ++ pending) api' r) _ _ _ _ (fun r api' stage => added r api' stage.1) fun api' => ?_
        exact ih (taken ++ pending) api'

theorem resolution_ensures (rounds : Nat) :
    Ensures (· = {}) (resolution c rounds) fun r api' => ∀ a ∈ api', Finished c r a := by
  let empty : Api := {
    title := c.document.title
    version := c.document.apiVersion
    «namespace» := c.config.namespace }
  have start : Stage c [] [] empty {} := by
    constructor
    · constructor <;> exact List.forall_mem_nil _
    · exact List.forall_mem_nil _
    · rfl
  have added := components_ensures c regular [] [] empty c.components (List.Subset.refl _)
  have same : [] ++ c.components.map Component.declaration = c.declarations [] := by
    simp [declarations]
  rw [same] at added
  refine ensures_bind (fun r api => Stage c (c.declarations []) [] api r) _ _ _ _ ?_ fun api => ?_
  · rintro r api rfl found
    exact added {} api start found
  · exact ensures_bind _ _ _ _ _ (operations_ensures c _ [] api) fun api' =>
      rounds_ensures c regular [] api' rounds

end Whole

section Closed

variable (c : Catalog) (r : Registry) (api : Api) (finished : Finished c r api)

include finished

theorem component_generated (d : Component) (member : d ∈ c.components)
    (named : d.kind.isNamed = true) : d.typeName ∈ api.typeNames :=
  finished.2.holds.named d.declaration (List.mem_append_left _ (List.mem_map_of_mem member)) named

theorem registered_generated (t : SynthesizedType) (member : t ∈ r.types) :
    t.name ∈ api.typeNames :=
  finished.2.holds.named t.declaration (List.mem_append_right _ (List.mem_map_of_mem member))
    (finished.2.kinds t member)

theorem named_generated (name : String) (isName : name ∈ c.typeNames) : name ∈ api.typeNames := by
  obtain ⟨d, isNamed, rfl⟩ := List.mem_map.mp isName
  obtain ⟨member, named⟩ := List.mem_filter.mp isNamed
  exact component_generated c r api finished d member named

theorem covered_generated (names : List String) (covered : c.Covers r names) :
    names ⊆ api.typeNames := by
  intro name member
  rcases covered name member with isName | isRegistered
  · exact named_generated c r api finished name isName
  · obtain ⟨t, isType, rfl⟩ := List.mem_map.mp isRegistered
    exact registered_generated c r api finished t isType

theorem types_known : c.KnowsAll r api.types := by
  intro t member
  simp only [types, List.mem_append] at member
  rcases member with ((inRecord | inTuple) | inUnion) | inOperation
  · obtain ⟨record, isRecord, isType⟩ := List.mem_flatMap.mp inRecord
    exact (finished.2.holds.records record isRecord).types t isType
  · obtain ⟨tuple, isTuple, isType⟩ := List.mem_flatMap.mp inTuple
    exact finished.2.holds.tuples tuple isTuple t isType
  · obtain ⟨union, isUnion, isMember⟩ := List.mem_flatMap.mp inUnion
    exact (finished.2.holds.unions union isUnion).members t isMember
  · exact finished.2.holds.operations t inOperation

theorem finished_closed : api.references ⊆ api.typeNames := by
  intro name member
  rcases List.mem_append.mp member with inTypes | isBase
  · obtain ⟨t, isType, inType⟩ := List.mem_flatMap.mp inTypes
    exact covered_generated c r api finished t.names (types_known c r api finished t isType) inType
  · obtain ⟨record, isRecord, present⟩ := List.mem_flatMap.mp isBase
    have based := (finished.2.holds.records record isRecord).base name (Option.mem_toList.mp present)
    exact named_generated c r api finished name based

-- Only a component that is an alias can be the variant of a union and yet have no generated name.
theorem finished_variants : (∀ v ∈ api.variants, v.typeName ∈ api.typeNames) ↔
    ∀ u ∈ c.declarations r.types, u.kind = .union → ∀ d, c.Targets u.schema d → d.kind = .alias →
      d.typeName ∈ api.typeNames := by
  constructor
  · intro generated u declared isUnion d targets _
    obtain ⟨union, member, shows⟩ := finished.2.holds.shown u declared isUnion
    obtain ⟨v, isVariant, sameName⟩ := shows.shown d targets
    rw [← sameName]
    exact generated v (List.mem_append_left _ (List.mem_flatMap.mpr ⟨union, member, isVariant⟩))
  · intro targeted v member
    rcases List.mem_append.mp member with inUnion | inRecord
    · obtain ⟨union, isUnion, isVariant⟩ := List.mem_flatMap.mp inUnion
      rcases (finished.2.holds.unions union isUnion).variants with named | ⟨u, declared, isKind, shows⟩
      · exact named_generated c r api finished v.typeName (named v isVariant)
      · rcases shows.known v isVariant with covered | ⟨d, targets, sameName⟩
        · exact covered_generated c r api finished _ covered (List.mem_singleton_self _)
        · rw [sameName]
          by_cases isAlias : d.kind = .alias
          · exact targeted u declared isKind d targets isAlias
          · exact component_generated c r api finished d (targets_mem c u.schema d targets)
              (bne_iff_ne.mpr isAlias)
    · obtain ⟨record, isRecord, isVariant⟩ := List.mem_flatMap.mp inRecord
      have named := (finished.2.holds.records record isRecord).variants v isVariant
      exact named_generated c r api finished v.typeName named

end Closed

def aliasUnion : Document where
  version := .v31
  contents := { components := { schemas := [
    ("Cat", { properties := [
      ("kind", { type := some (.single "string") }),
      ("home", { properties := [("room", { type := some (.single "string") })] })] }),
    ("Id", { type := some (.single "string") }),
    ("Pet", {
      oneOf := [
        { reference := some "#/components/schemas/Cat" },
        { reference := some "#/components/schemas/Id" }]
      discriminator := some { propertyName := "kind", mapping := [] } })] } }

/-- Every generated name that occurs in the model of a document, in a type at any depth or as the
base of a record, is the name of a type that the model holds. -/
theorem references_generated (document : Document) (config : Config) (rounds : Nat) (api : Api)
    (keyed : document.isKeyed = true) (made : ofDocument? document config rounds = .ok (some api)) :
    ∀ name ∈ api.references, name ∈ api.typeNames := by
  have regular := regular_of_document document config keyed
  have finished := resolution_ensures (ofDocument document config) regular rounds {} (some api) rfl
    made api rfl
  exact fun name member => finished_closed _ _ api finished member

theorem alias_union_references : ∃ api, ofDocument? aliasUnion {} 2 = .ok (some api)
    ∧ api.references = ["CatHome", "Cat"] ∧ ∀ name ∈ api.references, name ∈ api.typeNames :=
  ⟨_, rfl, by decide, references_generated aliasUnion {} 2 _ (by decide) rfl⟩

/-- The variants of all discriminators are generated types exactly if no union with a discriminator
targets an alias whose name no other type has. The unions are the components of that kind and those
that were synthesized. -/
theorem variants_generated_iff (document : Document) (config : Config) (rounds : Nat) (api : Api)
    (keyed : document.isKeyed = true) (made : ofDocument? document config rounds = .ok (some api)) :
    let c := ofDocument document config
    let r := after (resolution c rounds) {}
    (∀ v ∈ api.variants, v.typeName ∈ api.typeNames) ↔
      ∀ u ∈ c.declarations r.types, u.kind = .union → ∀ d, c.Targets u.schema d → d.kind = .alias →
        d.typeName ∈ api.typeNames := by
  intro c r
  have regular := regular_of_document document config keyed
  have finished := resolution_ensures c regular rounds {} (some api) rfl made api rfl
  exact finished_variants c r api finished

theorem alias_union_targets : ∃ api, ofDocument? aliasUnion {} 2 = .ok (some api) ∧
    let c := ofDocument aliasUnion {}
    let r := after (resolution c 2) {}
    ¬ ∀ u ∈ c.declarations r.types, u.kind = .union → ∀ d, c.Targets u.schema d → d.kind = .alias →
      d.typeName ∈ api.typeNames :=
  ⟨_, rfl, fun targeted => absurd
    ((variants_generated_iff aliasUnion {} 2 _ (by decide) rfl).mpr targeted) (by decide)⟩

-- The text is a variant, but no type of its name is generated.
theorem alias_union_variant_missing : ∃ api, ofDocument? aliasUnion {} 2 = .ok (some api)
    ∧ ∃ v ∈ api.variants, v.typeName ∉ api.typeNames :=
  ⟨_, rfl, ⟨"Id", "Id"⟩, by decide, by decide⟩

end Api

end OpenApi
