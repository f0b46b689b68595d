import OpenApi.Proofs.Model.Enumeration
import OpenApi.Proofs.Model.Names
import OpenApi.Proofs.Model.Signature

set_option autoImplicit false

namespace OpenApi

open Catalog Naming Resolution Text

namespace ParameterModel

theorem identifier_valid (wireName : String) (others : List ParameterModel)
    (ascii : Ascii wireName.toList) : IsIdentifier (identifier wireName others) :=
  unique_identifier _ _ (parameter_name_identifier wireName ascii)

def Identified (models : List ParameterModel) : Prop := ∀ p ∈ models, IsIdentifier p.name

theorem placeholders_identified (models : List ParameterModel) (names : List String)
    (ascii : ∀ name ∈ names, Ascii name.toList) (identified : Identified models) :
    Identified (addPlaceholders models names) := by
  induction names generalizing models with
  | nil => exact identified
  | cons wireName rest ih =>
      obtain ⟨first, others⟩ := List.forall_mem_cons.mp ascii
      rw [addPlaceholders]
      split
      · exact ih models others identified
      · have valid : IsIdentifier (ofPlaceholder models wireName).name := by
          rw [ofPlaceholder]
          dsimp only
          exact identifier_valid wireName models first
        refine ih _ others (List.forall_mem_append.mpr ⟨identified, ?_⟩)
        exact List.forall_mem_singleton.mpr valid

variable (c : Catalog) (operation : String)

theorem parameter_identified (others : List ParameterModel) (location : ParameterLocation)
    (p : Parameter) (ascii : Ascii p.name.toList) :
    Ensures (fun _ => True) (ofParameter c operation others location p)
      fun _ model => IsIdentifier model.name := by
  intro r model _ made
  rw [(parameter_derived c operation others location p r model trivial made).2]
  exact identifier_valid p.name others ascii

theorem declared_identified (models : List ParameterModel) (parameters : List Parameter)
    (ascii : ∀ p ∈ parameters, Ascii p.name.toList) (identified : Identified models) :
    Ensures (fun _ => True) (addDeclared c operation models parameters)
      fun _ models => Identified models := by
  induction parameters generalizing models with
  | nil => exact ensures_pure _ _ models fun _ _ => identified
  | cons p rest ih =>
      obtain ⟨first, others⟩ := List.forall_mem_cons.mp ascii
      rw [addDeclared]
      split
      · exact ih models others identified
      · refine ensures_known _ _ _ _ _ (parameter_identified c operation models _ p first) ?_
        intro model valid
        refine ih (models ++ [model]) others (List.forall_mem_append.mpr ⟨identified, ?_⟩)
        exact List.forall_mem_singleton.mpr valid

theorem parameters_identified (entry : OperationEntry) (asciiPath : Ascii entry.path.toList)
    (asciiNames : ∀ item ∈ entry.pathItem.parameters ++ entry.operation.parameters,
      ∀ p, c.document.parameter item = .ok p → Ascii p.name.toList) :
    Ensures (fun _ => True) (ofEntry c operation entry) fun _ models => Identified models := by
  intro r models _ found
  rw [ofEntry] at found
  obtain ⟨parameters, read, found⟩ := answered_bind _ _ r models found
  have ascii : ∀ p ∈ merged parameters, Ascii p.name.toList := by
    intro p isMerged
    obtain ⟨item, isItem, made⟩ := merged_origin c _ r parameters read p isMerged
    exact asciiNames item isItem p made
  obtain ⟨declared, added, found⟩ := answered_bind _ _ _ models found
  have identified := declared_identified c operation [] (merged parameters) ascii
    (List.forall_mem_nil _) _ declared trivial added
  cases found
  exact placeholders_identified declared _ (placeholder_ascii entry.path asciiPath) identified

end ParameterModel

theorem OperationModel.parameters_identified (d : Document) (config : Config) (ascii : d.AsciiNames)
    (entry : OperationEntry) :
    Ensures (fun _ => True) (ofEntry (.ofDocument d config) entry.name entry) fun _ o =>
      entry ∈ d.operations → ParameterModel.Identified o.parameters := by
  by_cases member : entry ∈ d.operations
  · have identified := ParameterModel.parameters_identified (.ofDocument d config) entry.name entry
      (ascii.operations entry member).1 (ascii.parameters entry member)
    intro r o _ found _
    exact parameters_known _ entry.name entry _ identified r o trivial found
  · exact fun _ _ _ _ isMember => absurd isMember member

namespace RecordModel

variable (c : Catalog) (name : String)

theorem properties_identified (required : List String) (discriminator : Option RecordDiscriminator)
    (properties : List (String × Schema)) (ascii : ∀ property ∈ properties, Ascii property.1.toList)
    (taken : List String) :
    Ensures (fun _ => True) (propertiesOf c name required discriminator taken properties)
      fun _ models => ∀ p ∈ models, IsIdentifier p.name := by
  induction properties generalizing taken with
  | nil => exact ensures_pure _ _ [] fun _ _ => List.forall_mem_nil _
  | cons property rest ih =>
      rcases property with ⟨jsonName, s⟩
      obtain ⟨first, others⟩ := List.forall_mem_cons.mp ascii
      have valid := unique_identifier _ taken (property_name_identifier jsonName first)
      rw [propertiesOf]
      apply ensures_later
      intro type
      refine ensures_known _ _ _ _ _ (ih others _) fun models identified => ?_
      exact ensures_pure _ _ _ fun _ _ => List.forall_mem_cons.mpr ⟨valid, identified⟩

theorem record_identified (source : Option String) (s : Schema)
    (ascii : ∀ flat, c.flatten source s = .ok flat →
      ∀ property ∈ flat.properties, Ascii property.1.toList) :
    Ensures (fun _ => True) (ofSchema c name source s) fun _ record =>
      record.name = name ∧ ∀ p ∈ record.properties, IsIdentifier p.name := by
  rw [ofSchema]
  refine ensures_bind_lift _ _ _ _ fun flat made => ?_
  refine ensures_bind_lift _ _ _ _ fun discriminator _ => ?_
  refine ensures_known _ _ _ _ _ (properties_identified c name _ _ _ (ascii flat made) _) ?_
  intro properties identified
  apply ensures_later
  intro additional
  exact ensures_pure _ _ _ fun _ _ => ⟨rfl, identified⟩

end RecordModel

namespace Api

structure Identified (declared : List Declaration) (api : Api) : Prop where
  named : ∀ name ∈ api.typeNames, ∃ t ∈ declared, t.name = name
  listed : ∀ t ∈ declared, t.kind.isNamed = true → t.name ∈ api.typeNames
  properties : ∀ record ∈ api.records, ∀ p ∈ record.properties, IsIdentifier p.name
  enumerations : ∀ e ∈ api.enumerations,
    ∃ t ∈ declared, t.kind = .enumeration ∧ e = EnumModel.ofSchema t.name t.schema

section Adding

variable (declared : List Declaration) (api : Api) (identified : Identified declared api)

include identified

theorem identified_more (t : Declaration) (records : List RecordModel)
    (enumerations : List EnumModel) (tuples : List TupleModel) (unions : List UnionModel)
    (named : ∀ name ∈ records.map (·.name) ++ enumerations.map (·.name) ++ tuples.map (·.name)
      ++ unions.map (·.name), t.name = name)
    (listed : t.kind.isNamed = true → t.name ∈ records.map (·.name) ++ enumerations.map (·.name)
      ++ tuples.map (·.name) ++ unions.map (·.name))
    (properties : ∀ record ∈ records, ∀ p ∈ record.properties, IsIdentifier p.name)
    (isEnumeration : ∀ e ∈ enumerations,
      t.kind = .enumeration ∧ e = EnumModel.ofSchema t.name t.schema) :
    Identified (declared ++ [t]) { api with
      records := api.records ++ records
      enumerations := api.enumerations ++ enumerations
      tuples := api.tuples ++ tuples
      unions := api.unions ++ unions } where
  named name member := by
    have inNames : name ∈ api.typeNames ∨ name ∈ records.map (·.name) ++ enumerations.map (·.name)
        ++ tuples.map (·.name) ++ unions.map (·.name) := by
      simp only [typeNames, List.map_append, List.mem_append] at member ⊢
      tauto
    rcases inNames with old | new
    · obtain ⟨t', isDeclared, isName⟩ := identified.named name old
      exact ⟨t', List.mem_append_left _ isDeclared, isName⟩
    · exact ⟨t, List.mem_append_right _ (List.mem_singleton_self t), named name new⟩
  listed := by
    refine List.forall_mem_append.mpr ⟨fun t' isDeclared isNamed => ?_, ?_⟩
    · have old := identified.listed t' isDeclared isNamed
      simp only [typeNames, List.map_append, List.mem_append] at old ⊢
      tauto
    · refine List.forall_mem_singleton.mpr fun isNamed => ?_
      have new := listed isNamed
      simp only [typeNames, List.map_append, List.mem_append] at new ⊢
      tauto
  properties := List.forall_mem_append.mpr ⟨identified.properties, properties⟩
  enumerations e member := by
    rcases List.mem_append.mp member with old | new
    · obtain ⟨t', isDeclared, isSchema⟩ := identified.enumerations e old
      exact ⟨t', List.mem_append_left _ isDeclared, isSchema⟩
    · exact ⟨t, List.mem_append_right _ (List.mem_singleton_self t), isEnumeration e new⟩

theorem operations_identified (c : Catalog) :
    Ensures (fun _ => True) (api.addOperations c) fun _ api' => Identified declared api' := by
  apply ensures_later
  intro operations
  refine ensures_bind_lift _ _ _ _ fun failures _ => ?_
  exact ensures_pure _ _ _ fun _ _ =>
    ⟨identified.named, identified.listed, identified.properties, identified.enumerations⟩

variable (c : Catalog) (components : ∀ d ∈ c.components, d.schema.AsciiNames)

include components

theorem type_identified (name : String) (source : Option String) (s : Schema)
    (ascii : s.AsciiNames) (kind : ComponentKind) :
    Ensures (fun _ => True) (api.addType c name source s kind)
      fun _ api' => Identified (declared ++ [⟨name, s, kind⟩]) api' := by
  have record := RecordModel.record_identified c name source s
    (flatten_ascii c components s ascii source)
  have more := identified_more declared api identified ⟨name, s, kind⟩
  cases kind with
  | record =>
      refine ensures_known _ _ _ _ _ record fun record ⟨isName, properties⟩ => ?_
      refine ensures_pure _ _ _ fun _ _ => ?_
      simpa only [List.append_nil] using more [record] [] [] [] (by simp [isName]) (by simp [isName])
        (List.forall_mem_singleton.mpr properties) (List.forall_mem_nil _)
  | hierarchy =>
      refine ensures_known _ _ _ _ _ record fun record ⟨isName, properties⟩ => ?_
      refine ensures_pure _ _ _ fun _ _ => ?_
      simpa only [List.append_nil] using more [record] [] [] _
        (by simp [isName, UnionModel.ofHierarchy]) (by simp [isName]) (List.forall_mem_singleton.mpr properties) (List.forall_mem_nil _)
  | enumeration =>
      refine ensures_pure _ _ _ fun _ _ => ?_
      simpa only [List.append_nil] using more [] [EnumModel.ofSchema name s] [] []
        (by simp [EnumModel.ofSchema]) (by simp [EnumModel.ofSchema]) (List.forall_mem_nil _)
        (List.forall_mem_singleton.mpr ⟨rfl, rfl⟩)
  | tuple =>
      refine ensures_known _ _ _ _ _ (TupleModel.tuple_named c name s) fun tuple isName => ?_
      refine ensures_pure _ _ _ fun _ _ => ?_
      simpa only [List.append_nil] using more [] [] [tuple] [] (by simp [isName]) (by simp [isName])
        (List.forall_mem_nil _) (List.forall_mem_nil _)
  | union =>
      refine ensures_known _ _ _ _ _ (UnionModel.union_named c name s) fun union isName => ?_
      refine ensures_pure _ _ _ fun _ _ => ?_
      simpa only [List.append_nil] using more [] [] [] [union] (by simp [isName]) (by simp [isName])
        (List.forall_mem_nil _) (List.forall_mem_nil _)
  | «alias» =>
      refine ensures_pure _ _ _ fun _ _ => ?_
      simpa only [List.append_nil] using more [] [] [] [] (by simp) (by simp [ComponentKind.isNamed])
        (List.forall_mem_nil _) (List.forall_mem_nil _)

end Adding

section Whole

variable (c : Catalog) (components : ∀ d ∈ c.components, d.schema.AsciiNames)
  (declared : List Declaration) (api : Api) (identified : Identified declared api)

include components identified

theorem components_identified (added : List Component) (members : added ⊆ c.components) :
    Ensures (fun _ => True) (api.addComponents c added) fun _ api' =>
      Identified (declared ++ added.map Component.declaration) api' := by
  induction added generalizing declared api with
  | nil => exact ensures_pure _ _ api fun _ _ => by simpa using identified
  | cons d rest ih =>
      obtain ⟨isComponent, others⟩ := List.cons_subset.mp members
      rw [List.map_cons, List.append_cons]
      refine ensures_known _ _ _ _ _ (type_identified declared api identified c components d.typeName
        (some d.name) d.schema (components d isComponent) d.kind) fun api' identified => ?_
      exact ih _ api' identified others

theorem synthesized_identified (types : List SynthesizedType)
    (ascii : ∀ t ∈ types, t.schema.AsciiNames) :
    Ensures (fun _ => True) (api.addSynthesized c types) fun _ api' =>
      Identified (declared ++ types.map SynthesizedType.declaration) api' := by
  induction types generalizing declared api with
  | nil => exact ensures_pure _ _ api fun _ _ => by simpa using identified
  | cons t rest ih =>
      obtain ⟨first, others⟩ := List.forall_mem_cons.mp ascii
      rw [List.map_cons, List.append_cons]
      refine ensures_known _ _ _ _ _ (type_identified declared api identified c components t.name
        none t.schema first t.kind) fun api' identified => ?_
      exact ih _ api' identified others

end Whole

section Rounds

variable (d : Document) (ascii : d.AsciiNames) (config : Config) (declared : List Declaration)
  (api : Api) (identified : Identified declared api)

include ascii identified

theorem round_identified (pending : List SynthesizedType) :
    let c := ofDocument d config
    let all := declared ++ pending.map SynthesizedType.declaration
    Ensures (fun r => Sourced c declared r ∧ ∀ t ∈ pending, t ∈ r.types)
      (api.addSynthesized c pending) fun r api' => Sourced c all r ∧ Identified all api' := by
  intro c all r api' ⟨sourced, registered⟩ found
  have each (t : SynthesizedType) (member : t ∈ pending) := sourced.types t (registered t member)
  have within : all ⊆ c.declarations r.types := by
    refine List.append_subset.mpr ⟨sourced.within, ?_⟩
    exact List.subset_append_of_subset_right _ (List.map_subset _ registered)
  have steps : c.Synthesizes Schema.AsciiNames d.Rooted (api.addSynthesized c pending) := by
    refine synthesized_steps c _ _ _ (d.rooted_closed ascii) (d.rooted_starts ascii) pending
      (fun t member => ?_) api
    exact d.declares_rooted ascii config t.name none t.schema (each t member).1 (each t member).2
  have components (component : Component) (member : component ∈ c.components) :=
    (d.component_named ascii config component member).1
  have allComponents : c.components.map Component.declaration ⊆ all :=
    List.subset_append_of_subset_left _ sourced.components
  have made := synthesized_identified c components declared api identified pending
    fun t member => (each t member).2
  exact ensures_sourced d ascii config all _ steps _ made r api'
    ⟨sourced.types, allComponents, within⟩ found

theorem rounds_identified (rounds : Nat) :
    let c := ofDocument d config
    Ensures (Sourced c declared) (addRounds c rounds api) fun r outcome => ∀ api' ∈ outcome,
      ∃ all, Sourced c all r ∧ Identified all api' := by
  intro c
  induction rounds generalizing declared api with
  | zero =>
      intro r outcome sourced found api' present
      obtain rfl : (if r.pending.isEmpty then some api else none) = outcome := Except.ok.inj found
      obtain ⟨_, same⟩ := Option.ite_none_right_eq_some.mp present
      cases same
      exact ⟨declared, sourced, identified⟩
  | succ rounds ih =>
      refine ensures_bind _ _ _ _ _ (pending_sourced c declared) fun pending => ?_
      by_cases nothing : pending.isEmpty = true
      · rw [if_pos nothing]
        refine ensures_pure _ _ _ fun r ⟨sourced, _⟩ api' present => ?_
        cases present
        exact ⟨declared, sourced, identified⟩
      · rw [if_neg nothing]
        refine ensures_bind _ _ _ _ _
          (round_identified d ascii config declared api identified pending) fun api' => ?_
        intro r outcome ⟨sourced, identified⟩ found
        exact ih _ api' identified r outcome sourced found

end Rounds

theorem resolution_identified (d : Document) (ascii : d.AsciiNames) (config : Config)
    (rounds : Nat) :
    let c := ofDocument d config
    Ensures (· = {}) (resolution c rounds) fun r outcome => ∀ api ∈ outcome,
      ∃ all, Sourced c all r ∧ Identified all api := by
  intro c
  let declared := c.components.map Component.declaration
  have components (component : Component) (member : component ∈ c.components) :=
    (d.component_named ascii config component member).1
  have start : Sourced c declared {} :=
    ⟨List.forall_mem_nil _, List.Subset.refl _, List.subset_append_left _ _⟩
  let empty : Api := {
    title := c.document.title
    version := c.document.apiVersion
    «namespace» := c.config.namespace }
  have nothing : Identified [] empty := by constructor <;> exact List.forall_mem_nil _
  have added := ensures_sourced d ascii config declared _ (components_rooted d ascii config empty) _
    (components_identified c components [] empty nothing c.components (List.Subset.refl _))
  refine ensures_bind (fun r api => Sourced c declared r ∧ Identified declared api) _ _ _ _ ?_
    fun api => ?_
  · rintro r api rfl found
    exact added {} api start found
  · refine ensures_bind (fun r api => Sourced c declared r ∧ Identified declared api) _ _ _ _ ?_
      fun api' => ?_
    · intro r api' ⟨sourced, identified⟩ found
      exact ensures_sourced d ascii config declared _ (operations_rooted d ascii config api) _
        (operations_identified declared api identified c) r api' sourced found
    · intro r outcome ⟨sourced, identified⟩ found
      exact rounds_identified d ascii config declared api' identified rounds r outcome sourced found

def parameters (api : Api) : List ParameterModel :=
  api.handlers.flatMap (·.methods.flatMap (·.parameters))
    ++ api.clients.flatMap (·.methods.flatMap (·.parameters))

theorem served_parameters (c : Catalog) (operations : List OperationModel) (api : Api)
    (serves : Serves c operations api) :
    ∀ p ∈ api.parameters, ∃ o ∈ operations, p ∈ o.parameters := by
  intro p member
  rcases List.mem_append.mp member with inHandler | inClient
  · obtain ⟨h, isInterface, inMethods⟩ := List.mem_flatMap.mp inHandler
    obtain ⟨method, isMethod, isParameter⟩ := List.mem_flatMap.mp inMethods
    rw [serves.handlers] at isInterface
    obtain ⟨o, isOperation, rfl⟩ :=
      HandlerInterface.methods_made operations h isInterface method isMethod
    exact ⟨o, isOperation, isParameter⟩
  · obtain ⟨client, isClient, inMethods⟩ := List.mem_flatMap.mp inClient
    obtain ⟨method, isMethod, isParameter⟩ := List.mem_flatMap.mp inMethods
    rw [serves.clients] at isClient
    obtain ⟨o, isOperation, rfl⟩ :=
      ClientModel.methods_made operations _ client isClient method isMethod
    exact ⟨o, isOperation, isParameter⟩

theorem parameters_identified (d : Document) (ascii : d.AsciiNames) (config : Config) (rounds : Nat)
    (api : Api) (made : ofDocument? d config rounds = .ok (some api)) :
    ∀ p ∈ api.parameters, IsIdentifier p.name := by
  have each := OperationModel.parameters_identified d config ascii
  obtain ⟨operations, holds, serves⟩ :=
    (resolution_makes (ofDocument d config) _ rounds each {} (some api) trivial made).2 api rfl
  intro p member
  obtain ⟨o, isOperation, isParameter⟩ := served_parameters _ operations api serves p member
  obtain ⟨entry, isEntry, identified⟩ :=
    OperationModel.entry_of_operation _ _ operations holds o isOperation
  exact identified isEntry p isParameter

def factors : Document where
  version := .v31
  contents := { components := { schemas := [
    ("2fa", {
      type := some (.single "string")
      enumValues := some [.str "sms", .str "app"]
      extra := [("x-enum-varnames", .arr [.str "1st", .str "2nd"])] })] } }

def checkIns : Document where
  version := .v31
  contents := {
    components := { schemas := [
      ("check-in", { properties := [
        ("2fa", {
          type := some (.single "string")
          enumValues := some [.str "text message", .str "1-time code"] }),
        ("guest_name", { type := some (.single "string") })] })] }
    paths := { items := [("/rooms/{room-no}", { get := some {} })] } }

theorem check_ins_ascii : checkIns.AsciiNames where
  components := by
    refine List.forall_mem_singleton.mpr ⟨by decide, .intro _ (by decide) ?_⟩
    refine List.forall_mem_cons.mpr ⟨Schema.ascii_leaf _ (by decide) rfl, ?_⟩
    exact List.forall_mem_singleton.mpr (Schema.ascii_leaf _ (by decide) rfl)
  parts := List.forall_mem_nil _
  operations := by decide
  parameters entry member item isItem := by
    have none : ∀ entry ∈ checkIns.operations,
      (entry.pathItem.parameters ++ entry.operation.parameters).length = 0 := by decide
    rw [List.length_eq_zero_iff.mp (none entry member)] at isItem
    cases isItem
  headers entry member response isResponse := by
    have none : ∀ entry ∈ checkIns.operations, entry.operation.responses.length = 0 := by decide
    rw [List.length_eq_zero_iff.mp (none entry member)] at isResponse
    cases isResponse

/-- For a document with ASCII names the names of properties and parameters are identifiers: letters,
digits and underscores, with no digit in front. The names of types and of the members of
enumerations have such characters too, but a digit may be in front. A type starts as the name of a
component or of an operation does, and a component that is generated has an identifier if and only
if its base name does not start with a digit. The members of an enumeration have identifiers if and
only if no name that its schema gives to them starts with a digit. -/
theorem generated_names_valid (document : Document) (config : Config) (rounds : Nat) (api : Api)
    (ascii : document.AsciiNames) (made : ofDocument? document config rounds = .ok (some api)) :
    let c := ofDocument document config
    let r := after (resolution c rounds) {}
    (∀ record ∈ api.records, ∀ p ∈ record.properties, IsIdentifier p.name)
      ∧ (∀ p ∈ api.parameters, IsIdentifier p.name)
      ∧ (∀ name ∈ api.typeNames, IsWord name ∧ document.Roots name)
      ∧ ((∀ start ∈ document.starts, startsWithDigit start = false) →
        ∀ name ∈ api.typeNames, IsIdentifier name)
      ∧ (∀ component ∈ c.components, component.kind.isNamed = true →
        component.typeName ∈ api.typeNames ∧ (IsIdentifier component.typeName
          ↔ startsWithDigit (Component.baseName component.name) = false))
      ∧ ∀ e ∈ api.enumerations, ∃ t ∈ c.declarations r.types,
        t.kind = .enumeration ∧ e = EnumModel.ofSchema t.name t.schema
          ∧ (∀ m ∈ e.members, IsName m.name)
          ∧ ((∀ m ∈ e.members, IsIdentifier m.name)
            ↔ ∀ given ∈ EnumModel.explicitNames t.schema, startsWithDigit given = false) := by
  intro c r
  obtain ⟨declared, sourced, identified⟩ :=
    resolution_identified document ascii config rounds {} (some api) rfl made api rfl
  have declaredNamed : ∀ t ∈ c.declarations r.types,
      t.schema.AsciiNames ∧ document.TypeNamed t.name := by
    refine List.forall_mem_append.mpr ⟨List.forall_mem_map.mpr ?_, List.forall_mem_map.mpr ?_⟩
    · exact document.component_named ascii config
    · exact fun t member => (sourced.types t member).symm
  have typesNamed : ∀ name ∈ api.typeNames, document.TypeNamed name := by
    intro name member
    obtain ⟨t, isDeclared, rfl⟩ := identified.named name member
    exact (declaredNamed t (sourced.within isDeclared)).2
  refine ⟨identified.properties, parameters_identified document ascii config rounds api made,
    typesNamed, ?_, ?_, ?_⟩
  · intro letters name member
    obtain ⟨word, start, isStart, sameHead⟩ := typesNamed name member
    refine ⟨name_of_word name word, ?_⟩
    rw [starts_with_digit, sameHead, ← starts_with_digit]
    exact letters start isStart
  · intro component member named
    refine ⟨?_, document.component_identifier ascii config component member⟩
    exact identified.listed component.declaration
      (sourced.components (List.mem_map_of_mem member)) named
  · intro e member
    obtain ⟨t, isDeclared, isEnumeration, isSchema⟩ := identified.enumerations e member
    have registered := sourced.within isDeclared
    have valid := EnumModel.schema_members_valid t.schema t.name (declaredNamed t registered).1
    rw [← isSchema] at valid
    exact ⟨t, registered, isEnumeration, isSchema, valid⟩

theorem check_ins_identified : ∃ api, ofDocument? checkIns {} 2 = .ok (some api)
    ∧ api.typeNames = ["CheckIn", "CheckIn2fa"] ∧ (∀ name ∈ api.typeNames, IsIdentifier name)
    ∧ api.enumerations.map (fun e => e.members.map (·.name)) = [["TextMessage", "Value1TimeCode"]]
    ∧ ∀ p ∈ api.parameters, IsIdentifier p.name := by
  have valid := generated_names_valid checkIns {} 2 _ check_ins_ascii rfl
  exact ⟨_, rfl, by decide, valid.2.2.2.1 (by decide), by decide, valid.2.1⟩

theorem factors_unidentified : factors.AsciiNames ∧ ∃ api, ofDocument? factors {} 2 = .ok (some api)
    ∧ api.typeNames = ["2fa"] ∧ (¬∀ name ∈ api.typeNames, IsIdentifier name)
    ∧ api.enumerations.map (fun e => e.members.map (·.name)) = [["1st", "2nd"]]
    ∧ ¬∀ e ∈ api.enumerations, ∀ m ∈ e.members, IsIdentifier m.name := by
  refine ⟨?_, _, rfl, by decide, by decide, by decide, by decide⟩
  constructor
  · exact List.forall_mem_singleton.mpr ⟨by decide, Schema.ascii_leaf _ (by decide) rfl⟩
  · exact List.forall_mem_nil _
  · exact List.forall_mem_nil _
  · exact List.forall_mem_nil _
  · exact List.forall_mem_nil _

end Api

end OpenApi
