import OpenApi.Proofs.Model.Api
import OpenApi.Proofs.Type.Delivery

set_option autoImplicit false

namespace OpenApi

open Catalog Resolution

def Declaration.namesOf (wanted : ComponentKind → Bool) (declared : List Declaration) :
    List String :=
  (declared.filter fun d => wanted d.kind).map (·.name)

theorem Declaration.names_of_append (wanted : ComponentKind → Bool)
    (first second : List Declaration) :
    namesOf wanted (first ++ second) = namesOf wanted first ++ namesOf wanted second := by
  simp [namesOf]

theorem Declaration.names_of_component (wanted : ComponentKind → Bool)
    (components : List Component) : namesOf wanted (components.map Component.declaration)
      = (components.filter fun d => wanted d.kind).map (·.typeName) := by
  rw [namesOf, List.filter_map, List.map_map]
  rfl

def UnionModel.isInheritance (u : UnionModel) : Bool := u.kind == .inheritance

namespace Api

def ownUnions (api : Api) : List UnionModel := api.unions.filter (!·.isInheritance)

def hierarchyUnions (api : Api) : List UnionModel := api.unions.filter (·.isInheritance)

def ownNames (api : Api) : List String :=
  api.records.map (·.name) ++ api.enumerations.map (·.name) ++ api.tuples.map (·.name)
    ++ api.ownUnions.map (·.name)

-- The model lists what was declared by kind and in order, and the hierarchies a second time.
structure Lists (declared : List Declaration) (hierarchies : List String) (api : Api) : Prop where
  records : api.records.map (·.name) = Declaration.namesOf (·.isRecordLike) declared
  enumerations : api.enumerations.map (·.name) = Declaration.namesOf (· == .enumeration) declared
  tuples : api.tuples.map (·.name) = Declaration.namesOf (· == .tuple) declared
  unions : api.ownUnions.map (·.name) = Declaration.namesOf (· == .union) declared
  hierarchies : api.hierarchyUnions.map (·.name) = hierarchies

theorem lists_more (declared : List Declaration) (hierarchies second : List String) (api : Api)
    (lists : Lists declared hierarchies api) (d : Declaration) (records : List RecordModel)
    (enumerations : List EnumModel) (tuples : List TupleModel) (unions : List UnionModel)
    (sameRecords : records.map (·.name) = Declaration.namesOf (·.isRecordLike) [d])
    (sameEnumerations : enumerations.map (·.name) = Declaration.namesOf (· == .enumeration) [d])
    (sameTuples : tuples.map (·.name) = Declaration.namesOf (· == .tuple) [d])
    (sameUnions : (unions.filter (!·.isInheritance)).map (·.name)
      = Declaration.namesOf (· == .union) [d])
    (sameSecond : (unions.filter (·.isInheritance)).map (·.name) = second) :
    Lists (declared ++ [d]) (hierarchies ++ second) { api with
      records := api.records ++ records
      enumerations := api.enumerations ++ enumerations
      tuples := api.tuples ++ tuples
      unions := api.unions ++ unions } := by
  constructor
  · rw [Declaration.names_of_append, List.map_append, lists.records, sameRecords]
  · rw [Declaration.names_of_append, List.map_append, lists.enumerations, sameEnumerations]
  · rw [Declaration.names_of_append, List.map_append, lists.tuples, sameTuples]
  · rw [Declaration.names_of_append, ownUnions, List.filter_append, List.map_append, ← ownUnions,
      lists.unions, sameUnions]
  · rw [hierarchyUnions, List.filter_append, List.map_append, ← hierarchyUnions,
      lists.hierarchies, sameSecond]

-- A registry from which some types were taken, with names of their own and named kinds.
structure Reached (c : Catalog) (taken : List SynthesizedType) (r : Registry) : Prop where
  taken : r.taken = taken
  named : r.WellNamed c.typeNames
  kinds : ∀ t ∈ r.types, t.kind.isNamed = true

section Adding

variable (c : Catalog) (regular : c.Regular) (taken : List SynthesizedType)
  (declared : List Declaration) (hierarchies : List String) (api : Api)

theorem ensures_reached {α : Type} {P : Registry → α → Prop} (m : Resolution α)
    (lawful : Lawful c AnySchema m P) :
    Ensures (Reached c taken) m fun r a => Reached c taken r ∧ P r a := by
  refine ensures_lawful c AnySchema P _ m lawful fun r r' grown reached => ?_
  refine ⟨(registers_taken c AnySchema r r' grown).trans reached.taken,
    registers_well_named c AnySchema r r' grown reached.named, fun t member => ?_⟩
  rcases registers_mem c AnySchema r r' grown t member with old | ⟨_, named⟩
  · exact reached.kinds t old
  · exact named

-- The second name of the base of a hierarchy, which is that of a component.
def hierarchyName (name : String) (source : Option String) (kind : ComponentKind) : List String :=
  if kind = .hierarchy then source.toList.map fun _ => name else []

theorem union_own (name : String) (s : Schema) :
    Ensures (Reached c taken) (UnionModel.ofSchema c name s) fun r union =>
      Reached c taken r ∧ union.name = name ∧ union.isInheritance = false := by
  rw [UnionModel.ofSchema]
  refine ensures_bind _ _ _ _ _ (ensures_reached c taken _ (union_shape_lawful c s name))
    fun shape => ?_
  have members := ensures_reached c taken _ (UnionModel.union_members_lawful c name s.unionMembers 1)
  refine ensures_bind (fun r _ => Reached c taken r) _ _ _ _
    (fun r models before made => (members r models before.1 made).1) fun models => ?_
  refine ensures_pure _ _ _ fun r same => ⟨same, rfl, ?_⟩
  cases shape.exclusive <;> rfl

section Types

include regular

theorem type_lists (name : String) (source : Option String) (s : Schema)
    (isSource : c.IsSource source s) (kind : ComponentKind)
    (lists : Lists declared hierarchies api) :
    Ensures (Reached c taken) (api.addType c name source s kind) fun r api' => Reached c taken r
      ∧ Lists (declared ++ [⟨name, s, kind⟩]) (hierarchies ++ hierarchyName name source kind)
          api' := by
  have more := lists_more declared hierarchies (hierarchyName name source kind) api lists
    ⟨name, s, kind⟩
  have record := ensures_reached c taken _
    (RecordModel.record_lawful c name source s regular isSource)
  cases kind with
  | record =>
      refine ensures_bind _ _ _ _ _ record fun record => ?_
      refine ensures_pure _ _ _ fun r ⟨same, isName, _⟩ => ⟨same, ?_⟩
      have added := more [record] [] [] [] (congrArg ([·]) isName) rfl rfl rfl rfl
      simpa only [List.append_nil] using added
  | hierarchy =>
      refine ensures_bind _ _ _ _ _ record fun record => ?_
      refine ensures_pure _ _ _ fun r ⟨same, isName, _⟩ => ⟨same, ?_⟩
      have added := more [record] [] []
        (source.toList.map fun component => UnionModel.ofHierarchy c name component s)
        (congrArg ([·]) isName) rfl rfl (by cases source <;> rfl) (by cases source <;> rfl)
      simpa only [List.append_nil] using added
  | enumeration =>
      refine ensures_pure _ _ _ fun r same => ⟨same, ?_⟩
      have added := more [] [EnumModel.ofSchema name s] [] [] rfl rfl rfl rfl rfl
      simpa only [List.append_nil] using added
  | tuple =>
      refine ensures_bind _ _ _ _ _ (ensures_reached c taken _ (TupleModel.tuple_lawful c name s))
        fun tuple => ?_
      refine ensures_pure _ _ _ fun r ⟨same, isName, _⟩ => ⟨same, ?_⟩
      have added := more [] [] [tuple] [] rfl rfl (congrArg ([·]) isName) rfl rfl
      simpa only [List.append_nil] using added
  | union =>
      refine ensures_bind _ _ _ _ _ (union_own c taken name s) fun union => ?_
      refine ensures_pure _ _ _ fun r ⟨same, isName, isOwn⟩ => ⟨same, ?_⟩
      have added := more [] [] [] [union] rfl rfl rfl
        (by simp [isOwn, isName, Declaration.namesOf]) (by simp [isOwn, hierarchyName])
      simpa only [List.append_nil] using added
  | «alias» =>
      refine ensures_pure _ _ _ fun r same => ⟨same, ?_⟩
      have added := more [] [] [] [] rfl rfl rfl rfl rfl
      simpa only [List.append_nil] using added

def hierarchyNames (components : List Component) : List String :=
  (components.filter (·.kind == .hierarchy)).map (·.typeName)

theorem components_lists (components : List Component) (members : components ⊆ c.components)
    (lists : Lists declared hierarchies api) :
    Ensures (Reached c taken) (api.addComponents c components) fun r api' => Reached c taken r
      ∧ Lists (declared ++ components.map Component.declaration)
          (hierarchies ++ hierarchyNames components) api' := by
  induction components generalizing declared hierarchies api with
  | nil => exact ensures_pure _ _ api fun r same => ⟨same, by simpa [hierarchyNames] using lists⟩
  | cons d rest ih =>
      have isSource : c.IsSource (some d.name) d.schema := by
        intro name present
        obtain rfl := Option.some.inj present
        exact ⟨d, members List.mem_cons_self, rfl, rfl⟩
      have names : hierarchyNames (d :: rest)
          = hierarchyName d.typeName (some d.name) d.kind ++ hierarchyNames rest := by
        by_cases isHierarchy : d.kind = .hierarchy <;>
          simp [hierarchyNames, hierarchyName, isHierarchy]
      rw [List.map_cons, List.append_cons, names, ← List.append_assoc]
      have first := type_lists c regular taken declared hierarchies api d.typeName (some d.name)
        d.schema isSource d.kind lists
      refine ensures_bind _ _ _ _ _ first fun api' r api'' ⟨same, listsFirst⟩ => ?_
      exact ih _ _ api' (fun d' inRest => members (List.mem_cons_of_mem d inRest)) listsFirst r api''
        same

theorem synthesized_lists (types : List SynthesizedType) (lists : Lists declared hierarchies api) :
    Ensures (Reached c taken) (api.addSynthesized c types) fun r api' => Reached c taken r
      ∧ Lists (declared ++ types.map SynthesizedType.declaration) hierarchies api' := by
  induction types generalizing declared api with
  | nil => exact ensures_pure _ _ api fun r same => ⟨same, by simpa using lists⟩
  | cons t rest ih =>
      rw [List.map_cons, List.append_cons]
      have first := type_lists c regular taken declared hierarchies api t.name none t.schema
        (fun _ absent => by cases absent) t.kind lists
      refine ensures_bind _ _ _ _ _ first fun api' r api'' ⟨same, listsFirst⟩ => ?_
      have noHierarchy : hierarchyName t.name none t.kind = [] := by simp [hierarchyName]
      rw [noHierarchy, List.append_nil] at listsFirst
      exact ih _ api' listsFirst r api'' same

end Types

theorem operations_lists (lists : Lists declared hierarchies api) :
    Ensures (Reached c taken) (api.addOperations c) fun r api' => Reached c taken r
      ∧ Lists declared hierarchies api' := by
  have made := ensures_reached c taken _ (OperationModel.operations_lawful c [] c.document.operations)
  refine ensures_bind _ _ _ _ _ made fun operations => ?_
  refine ensures_bind_lift _ _ _ _ fun failures _ => ensures_pure _ _ _ fun r ⟨same, _⟩ => ?_
  exact ⟨same, lists.records, lists.enumerations, lists.tuples, lists.unions, lists.hierarchies⟩

theorem declarations_append (first second : List SynthesizedType) :
    c.declarations (first ++ second)
      = c.declarations first ++ second.map SynthesizedType.declaration := by
  simp [declarations]

theorem pending_reached : Ensures (Reached c taken) Resolution.takePending
    fun r pending => Reached c (taken ++ pending) r ∧ r.pending = [] := by
  intro r pending reached found
  obtain rfl : r.pending = pending := Except.ok.inj found
  refine ⟨⟨congrArg (· ++ r.pending) reached.taken, ?_, ?_⟩, rfl⟩
  · exact pending_taken_named c.typeNames r reached.named
  · rw [pending_taken_types]
    exact reached.kinds

structure Listed (c : Catalog) (r : Registry) (hierarchies : List String) (api : Api) : Prop where
  pending : r.pending = []
  lists : Lists (c.declarations r.types) hierarchies api
  named : r.WellNamed c.typeNames
  kinds : ∀ t ∈ r.types, t.kind.isNamed = true

theorem listed_of_reached (r : Registry) (reached : Reached c taken r) (nothing : r.pending = [])
    (lists : Lists (c.declarations taken) hierarchies api) : Listed c r hierarchies api := by
  have allTaken : r.types = taken := by
    rw [Registry.types, nothing, List.append_nil, reached.taken]
  exact ⟨nothing, allTaken ▸ lists, reached.named, reached.kinds⟩

include regular

theorem rounds_lists (rounds : Nat) (lists : Lists (c.declarations taken) hierarchies api) :
    Ensures (Reached c taken) (addRounds c rounds api) fun r outcome => ∀ api' ∈ outcome,
      Listed c r hierarchies api' := by
  induction rounds generalizing taken api with
  | zero =>
      intro r outcome same found api' present
      obtain rfl : (if r.pending.isEmpty then some api else none) = outcome := Except.ok.inj found
      by_cases nothing : r.pending.isEmpty = true
      · rw [if_pos nothing] at present
        obtain rfl := Option.some.inj present
        exact listed_of_reached c taken hierarchies api r same (List.isEmpty_iff.mp nothing) lists
      · rw [if_neg nothing] at present
        cases present
  | succ rounds ih =>
      refine ensures_bind _ _ _ _ _ (pending_reached c taken) fun pending => ?_
      by_cases nothing : pending.isEmpty = true
      · rw [if_pos nothing]
        refine ensures_pure _ _ _ fun r ⟨same, nothingLeft⟩ api' present => ?_
        obtain rfl := Option.some.inj present
        rw [List.isEmpty_iff.mp nothing, List.append_nil] at same
        exact listed_of_reached c taken hierarchies api r same nothingLeft lists
      · rw [if_neg nothing]
        have added := synthesized_lists c regular (taken ++ pending) (c.declarations taken)
          hierarchies api pending lists
        rw [← declarations_append] at added
        refine ensures_bind (fun r api' => Reached c (taken ++ pending) r
            ∧ Lists (c.declarations (taken ++ pending)) hierarchies api') _ _ _ _
          (fun r api' before => added r api' before.1) fun api' r outcome ⟨same, listsMore⟩ => ?_
        exact ih (taken ++ pending) api' listsMore r outcome same

theorem resolution_lists (rounds : Nat) : Ensures (· = {}) (resolution c rounds)
    fun r outcome => ∀ api ∈ outcome, Listed c r (hierarchyNames c.components) api := by
  let empty : Api := {
    title := c.document.title
    version := c.document.apiVersion
    «namespace» := c.config.namespace }
  have nothing : Lists [] [] empty := ⟨rfl, rfl, rfl, rfl, rfl⟩
  have added := components_lists c regular [] [] [] empty c.components (List.Subset.refl _) nothing
  have start : Reached c [] {} :=
    ⟨rfl, Registry.well_named_empty c.typeNames, List.forall_mem_nil _⟩
  have same : [] ++ c.components.map Component.declaration = c.declarations [] := by
    simp [declarations]
  rw [same, List.nil_append] at added
  refine ensures_bind (fun r api => Reached c [] r
      ∧ Lists (c.declarations []) (hierarchyNames c.components) api) _ _ _ _ ?_ fun api => ?_
  · rintro r api rfl found
    exact added {} api start found
  · have finish (lists : Lists (c.declarations []) (hierarchyNames c.components) api) :
        Ensures (Reached c []) (do addRounds c rounds (← api.addOperations c)) fun r outcome =>
          ∀ api' ∈ outcome, Listed c r (hierarchyNames c.components) api' := by
      refine ensures_bind _ _ _ _ _ (operations_lists c [] _ _ api lists) fun api' => ?_
      intro r outcome before
      exact rounds_lists c regular [] (hierarchyNames c.components) api' rounds before.2 r outcome
        before.1
    exact fun r outcome before => finish before.2 r outcome before.1

end Adding

section Once

variable (c : Catalog) (r : Registry)

theorem declared_names_distinct (distinct : c.typeNames.Nodup) (named : r.WellNamed c.typeNames)
    (kinds : ∀ t ∈ r.types, t.kind.isNamed = true) :
    (Declaration.namesOf (·.isNamed) (c.declarations r.types)).Nodup := by
  rw [declarations, Declaration.names_of_append, Declaration.names_of_component]
  have registered : Declaration.namesOf (·.isNamed) (r.types.map SynthesizedType.declaration)
      = r.names := by
    rw [Declaration.namesOf, List.filter_eq_self.mpr, List.map_map]
    · rfl
    · intro d isDeclared
      obtain ⟨t, member, rfl⟩ := List.mem_map.mp isDeclared
      exact kinds t member
  rw [registered]
  refine List.nodup_append.mpr ⟨distinct, named.distinct, ?_⟩
  rintro name isComponent _ isRegistered rfl
  exact named.free name isRegistered isComponent

theorem listed_once (declared : List Declaration) (hierarchies : List String) (api : Api)
    (lists : Lists declared hierarchies api) :
    api.ownNames.Perm (Declaration.namesOf (·.isNamed) declared) := by
  rw [ownNames, lists.records, lists.enumerations, lists.tuples, lists.unions]
  clear lists
  rw [List.perm_iff_count]
  intro name
  induction declared with
  | nil => rfl
  | cons d rest ih =>
      simp only [List.count_append] at ih ⊢
      simp only [Declaration.namesOf, List.filter_cons] at ih ⊢
      cases d.kind with
      | record | enumeration | tuple | union | hierarchy | «alias» =>
        simp [ComponentKind.isNamed, ComponentKind.isRecordLike, List.count_cons] at ih ⊢
        omega

end Once

def petHierarchy : Document where
  version := .v31
  contents := { components := { schemas := [
    ("Pet", {
      properties := [("kind", { type := some (.single "string") })]
      discriminator := some { propertyName := "kind", mapping := [] } }),
    ("Cat", {
      allOf := [
        { reference := some "#/components/schemas/Pet" },
        { properties := [
          ("home", { properties := [("room", { type := some (.single "string") })] })] }] })] } }

/-- No type that is synthesized is lost, and none is handed out twice. In every state of a resolver
the types handed out so far and those that are pending are all that were registered, in the order of
first registration and under names of their own; a call that resolves is a run of elementary calls.
So a finished model lists each named component and each synthesized type once, as what its kind
says, and the base of a hierarchy as a union besides. -/
theorem synthesized_types_once (document : Document) (config : Config)
    (keyed : document.isKeyed = true) :
    let c := ofDocument document config
    (∀ calls : List Call, (∀ k ∈ calls, k.isElementary = true) →
        c.handedOut calls ++ (c.run {} calls).pending = c.registered calls)
      ∧ (∀ calls : List Call, ∃ steps : List Call, (∀ k ∈ steps, k.isElementary = true)
          ∧ c.run {} steps = c.run {} calls ∧ c.handedOut steps = c.handedOut calls)
      ∧ (∀ calls : List Call,
          ((c.handedOut calls ++ (c.run {} calls).pending).map (·.name)).Nodup)
      ∧ ∀ rounds api, ofDocument? document config rounds = .ok (some api) →
          let r := after (resolution c rounds) {}
          let declared := c.declarations r.types
          r.pending = []
            ∧ Lists declared (hierarchyNames c.components) api
            ∧ api.ownNames.Nodup
            ∧ ∀ d ∈ declared, d.kind.isNamed = true → api.ownNames.count d.name = 1 := by
  intro c
  have regular := regular_of_document document config keyed
  have delivers := run_delivers c regular.keyed
  refine ⟨?_, ?_, ?_, ?_⟩
  · intro calls elementary
    rw [delivers, run_adds c calls elementary {}]
    rfl
  · exact fun calls => run_elementary c regular.keyed calls {}
  · intro calls
    rw [delivers]
    exact (run_sound c regular.keyed calls {} (sound_empty c)).named.distinct
  · intro rounds api made r declared
    have listed := resolution_lists c regular rounds {} (some api) rfl made api rfl
    have distinct := declared_names_distinct c r (type_names_distinct document config) listed.named
      listed.kinds
    have same := listed_once declared _ api listed.lists
    refine ⟨listed.pending, listed.lists, same.nodup_iff.mpr distinct, fun d isDeclared named => ?_⟩
    rw [same.count_eq]
    refine List.count_eq_one_of_mem distinct (List.mem_map_of_mem (List.mem_filter.mpr ?_))
    exact ⟨isDeclared, named⟩

theorem pet_hierarchy_once :
    let c := ofDocument petHierarchy {}
    let calls := [.resolve inlineOwner (some "pet"), .takePending, .resolve inlineTag (some "pet")]
    (c.handedOut calls ++ (c.run {} calls).pending).map (·.name) = ["Pet2", "Pet3"]
      ∧ ((c.handedOut calls ++ (c.run {} calls).pending).map (·.name)).Nodup
      ∧ ∃ api, ofDocument? petHierarchy {} 2 = .ok (some api)
        ∧ api.ownNames = ["Pet", "Cat", "CatHome"] ∧ api.hierarchyUnions.map (·.name) = ["Pet"]
        ∧ api.ownNames.Nodup := by
  have once := synthesized_types_once petHierarchy {} (by decide)
  exact ⟨by decide, once.2.2.1 _, _, rfl, by decide, by decide, (once.2.2.2 2 _ rfl).2.2.1⟩

end Api

end OpenApi
