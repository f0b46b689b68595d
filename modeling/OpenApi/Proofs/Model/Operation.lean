import OpenApi.Proofs.Model.Declaration

set_option autoImplicit false

namespace OpenApi

open Catalog Resolution

namespace ParameterModel

variable (c : Catalog) (operation : String)

theorem parameter_lawful (others : List ParameterModel) (location : ParameterLocation)
    (p : Parameter) : Lawful c AnySchema (ofParameter c operation others location p)
      fun r model => c.Knows r model.type := by
  rw [ofParameter]
  cases p.schema? with
  | none => exact lawful_pure c AnySchema _ _ fun r => knows_nothing c r _ rfl
  | some s =>
      refine lawful_bind c AnySchema c.Knows _ _ _ (knows_lasting c) (resolve_knows c s _) ?_
      exact fun type => lawful_pure c AnySchema _ _ fun r known => known

def Known (r : Registry) (models : List ParameterModel) : Prop :=
  ∀ p ∈ models, c.Knows r p.type

theorem known_lasting (models : List ParameterModel) : Lasting (Known c · models) :=
  lasting_all (fun r (p : ParameterModel) => c.Knows r p.type) models fun p =>
    knows_lasting c p.type

theorem declared_lawful (parameters : List Parameter) (models : List ParameterModel) :
    Lawful c AnySchema (addDeclared c operation models parameters)
      fun r all => Known c r models → Known c r all := by
  induction parameters generalizing models with
  | nil => exact lawful_pure c AnySchema _ models fun r known => known
  | cons p rest ih =>
      rw [addDeclared]
      cases ParameterLocation.parse? p.location with
      | none => exact ih models
      | some location =>
          refine lawful_bind c AnySchema (fun r model => c.Knows r model.type) _ _ _ ?_
            (parameter_lawful c operation models location p) fun model => ?_
          · exact fun model => knows_lasting c model.type
          · refine lawful_weaken c AnySchema _ _ _ (ih (models ++ [model])) ?_
            intro r all more modelKnown known
            exact more (List.forall_mem_append.mpr ⟨known, List.forall_mem_singleton.mpr modelKnown⟩)

theorem placeholders_known (r : Registry) (names : List String) (models : List ParameterModel)
    (known : Known c r models) : Known c r (addPlaceholders models names) := by
  induction names generalizing models with
  | nil => exact known
  | cons name rest ih =>
      rw [addPlaceholders]
      split
      · exact ih models known
      · apply ih
        refine List.forall_mem_append.mpr ⟨known, List.forall_mem_singleton.mpr ?_⟩
        exact knows_nothing c r _ rfl

theorem parameters_lawful (entry : OperationEntry) :
    Lawful c AnySchema (ofEntry c operation entry) (Known c) := by
  rw [ofEntry]
  refine lawful_bind c AnySchema (fun _ _ => True) _ _ _ (fun _ _ _ _ _ => trivial) ?_ ?_
  · refine lawful_weaken c AnySchema _ _ _ (lawful_map_list c AnySchema (fun _ _ => True) _ _
      (fun _ _ _ _ _ => trivial) fun item _ => ?_) fun _ _ _ => trivial
    exact lawful_lift c AnySchema _ _ fun _ _ _ => trivial
  intro parameters
  refine lawful_bind c AnySchema (Known c) _ _ _ (known_lasting c) ?_ fun declared => ?_
  · refine lawful_weaken c AnySchema _ _ _ (declared_lawful c operation _ []) ?_
    exact fun r all holds => holds fun p absent => by cases absent
  · exact lawful_pure c AnySchema _ _ fun r known _ => placeholders_known c r _ declared known

end ParameterModel

theorem Payload.type_lawful (c : Catalog) (contentType : String) (m : MediaType) (hint : String) :
    Lawful c AnySchema (typeOf c contentType m hint) c.Knows := by
  rw [typeOf]
  split
  · exact lawful_pure c AnySchema _ _ fun r => knows_nothing c r _ rfl
  · exact lawful_pure c AnySchema _ _ fun r => knows_nothing c r _ rfl
  · exact resolve_knows c _ _
  · exact lawful_pure c AnySchema _ _ fun r => knows_nothing c r _ rfl

theorem Payload.content_lawful (c : Catalog) (content : List (String × MediaType)) (hint : String) :
    Lawful c AnySchema (ofContent c content hint)
      fun r payload => ∀ p ∈ payload, c.Knows r p.type := by
  rw [ofContent]
  split
  · exact lawful_pure c AnySchema _ none fun _ _ absent => by cases absent
  · refine lawful_bind c AnySchema c.Knows _ _ _ (knows_lasting c) (type_lawful c _ _ _) ?_
    refine fun type => lawful_pure c AnySchema _ _ fun r known p present => ?_
    obtain rfl := Option.some.inj present
    exact known

theorem payload_lasting (c : Catalog) (payload : Option Payload) :
    Lasting fun r => ∀ p ∈ payload, c.Knows r p.type :=
  fun r r' grown known p present => knows_lasting c p.type r r' grown (known p present)

namespace ResultModel

variable (c : Catalog) (operation : String)

theorem headers_lawful (start : String) (headers : List (String × RefOr Header)) :
    Lawful c AnySchema (headersOf c start headers)
      fun r models => ∀ h ∈ models, c.Knows r h.type := by
  induction headers with
  | nil => exact lawful_pure c AnySchema _ [] fun _ _ absent => by cases absent
  | cons entry rest ih =>
      rcases entry with ⟨wireName, item⟩
      rw [headersOf]
      split
      · exact ih
      · refine lawful_bind_lift c AnySchema _ _ _ fun header _ => ?_
        have finish : ∀ m : Resolution ResolvedType, Lawful c AnySchema m c.Knows →
            Lawful c AnySchema (do
              let type ← m
              let others ← headersOf c start rest
              pure ({
                wireName
                type
                required := header.required
                description := header.description } :: others))
              fun r models => ∀ h ∈ models, c.Knows r h.type := fun m lawful =>
          lawful_cons_map c AnySchema c.Knows (fun r (h : HeaderModel) => c.Knows r h.type) m _ _
            (knows_lasting c) (fun h => knows_lasting c h.type) (fun _ _ known => known) lawful ih
        cases header.schema with
        | none => exact finish _ (lawful_pure c AnySchema _ _ fun r => knows_nothing c r _ rfl)
        | some s => exact finish _ (resolve_knows c s _)

theorem case_lawful (status : StatusCode) (item : RefOr Response) :
    Lawful c AnySchema (caseOf c operation status item) fun r model => c.KnowsAll r model.types := by
  rw [caseOf]
  refine lawful_bind_lift c AnySchema _ _ _ fun response _ => ?_
  refine lawful_bind c AnySchema (fun r payload => ∀ p ∈ payload, c.Knows r p.type) _ _ _
    (payload_lasting c) (Payload.content_lawful c _ _) fun payload => ?_
  refine lawful_bind c AnySchema (fun r models => ∀ h ∈ models, c.Knows r h.type) _ _ _ ?_
    (headers_lawful c _ _) fun headers => ?_
  · exact fun models => lasting_all _ models fun h => knows_lasting c h.type
  refine lawful_pure c AnySchema _ _ fun r headersKnown payloadKnown t member => ?_
  rcases List.mem_append.mp member with isBody | isHeader
  · obtain ⟨p, present, rfl⟩ := Option.map_eq_some_iff.mp (Option.mem_toList.mp isBody)
    exact payloadKnown p present
  · obtain ⟨h, inHeaders, rfl⟩ := List.mem_map.mp isHeader
    exact headersKnown h inHeaders

theorem cases_lawful (responses : List (String × RefOr Response)) :
    Lawful c AnySchema (casesOf c operation responses)
      fun r models => ∀ model ∈ models, c.KnowsAll r model.types := by
  induction responses with
  | nil => exact lawful_pure c AnySchema _ [] fun _ _ absent => by cases absent
  | cons response rest ih =>
      rcases response with ⟨key, item⟩
      rw [casesOf]
      cases StatusCode.parse? key with
      | none => exact ih
      | some status =>
          exact lawful_cons c AnySchema (fun r (model : ResultCase) => c.KnowsAll r model.types) _ _
            (fun model => c.knows_all_lasting model.types) (case_lawful c operation status item) ih

theorem result_lawful (o : Operation) :
    Lawful c AnySchema (ofOperation c operation o) fun r result => c.KnowsAll r result.types := by
  rw [ofOperation]
  refine lawful_bind c AnySchema (fun r models => ∀ model ∈ models, c.KnowsAll r model.types) _ _ _
    ?_ (cases_lawful c operation o.responses) fun models => ?_
  · exact fun models => lasting_all _ models fun model => c.knows_all_lasting model.types
  · refine lawful_pure c AnySchema _ _ fun r known t member => ?_
    obtain ⟨model, inModels, inCase⟩ := List.mem_flatMap.mp member
    exact known model inModels t inCase

end ResultModel

namespace OperationModel

variable (c : Catalog)

theorem body_lawful (name : String) (o : Operation) : Lawful c AnySchema (requestBodyOf c name o)
    fun r body => ∀ b ∈ body, c.Knows r b.type := by
  rw [requestBodyOf]
  split
  · exact lawful_pure c AnySchema _ none fun _ _ absent => by cases absent
  · refine lawful_bind_lift c AnySchema _ _ _ fun body _ => ?_
    refine lawful_bind c AnySchema (fun r payload => ∀ p ∈ payload, c.Knows r p.type) _ _ _
      (payload_lasting c) (Payload.content_lawful c _ _) fun payload => ?_
    refine lawful_pure c AnySchema _ _ fun r known b present => ?_
    obtain ⟨p, isPayload, rfl⟩ := Option.map_eq_some_iff.mp present
    exact known p isPayload

theorem operation_lawful (name : String) (entry : OperationEntry) :
    Lawful c AnySchema (ofEntry c name entry) fun r model => c.KnowsAll r model.types := by
  rw [ofEntry]
  refine lawful_bind c AnySchema (ParameterModel.Known c) _ _ _ (ParameterModel.known_lasting c)
    (ParameterModel.parameters_lawful c name entry) fun parameters => ?_
  refine lawful_bind c AnySchema (fun r body => ∀ b ∈ body, c.Knows r b.type) _ _ _ ?_
    (body_lawful c name _) fun body => ?_
  · exact fun body r r' grown known b present =>
      knows_lasting c b.type r r' grown (known b present)
  refine lawful_bind c AnySchema (fun r result => c.KnowsAll r result.types) _ _ _
    (fun result => c.knows_all_lasting result.types) (ResultModel.result_lawful c name _) ?_
  intro result
  refine lawful_bind_lift c AnySchema _ _ _ fun policies _ => ?_
  refine lawful_pure c AnySchema _ _ fun r resultKnown bodyKnown parametersKnown t member => ?_
  simp only [types, List.mem_append] at member
  rcases member with (isParameter | isBody) | isResult
  · obtain ⟨p, inParameters, rfl⟩ := List.mem_map.mp isParameter
    exact parametersKnown p inParameters
  · obtain ⟨b, present, rfl⟩ := Option.map_eq_some_iff.mp (Option.mem_toList.mp isBody)
    exact bodyKnown b present
  · exact resultKnown t isResult

theorem operations_lawful (taken : List String) (entries : List OperationEntry) :
    Lawful c AnySchema (ofEntries c taken entries)
      fun r models => ∀ o ∈ models, c.KnowsAll r o.types := by
  induction entries generalizing taken with
  | nil => exact lawful_pure c AnySchema _ [] fun _ _ absent => by cases absent
  | cons entry rest ih =>
      rw [ofEntries]
      split
      · exact lawful_throw c AnySchema _ _
      · exact lawful_cons c AnySchema (fun r (o : OperationModel) => c.KnowsAll r o.types) _ _
          (fun o => c.knows_all_lasting o.types) (operation_lawful c entry.name entry) (ih _)

end OperationModel

end OpenApi
