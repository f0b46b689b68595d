import OpenApi.Proofs.Model.Result
import OpenApi.Proofs.Naming.Parameter

set_option autoImplicit false

namespace OpenApi

open Resolution

def Response.headerNames (response : Response) : List String :=
  (Assoc.keys response.headers).filter fun wireName => !ResultModel.isContentType wireName

namespace ResultModel

open Naming (parameterName parameterSpelling parameter_names_distinct_iff)
open StatusCode (parse?)

def Documents (c : Catalog) (responses : List (String × RefOr Response)) (made : ResultCase)
    (response : Response) : Prop :=
  ∃ key item, (key, item) ∈ responses ∧ parse? key = some made.status
    ∧ c.document.response item = .ok response
    ∧ made.headers.map (·.wireName) = response.headerNames

section Headers

variable (c : Catalog) (start : String)

theorem headers_wire_names (headers : List (String × RefOr Header)) :
    Ensures (fun _ => True) (headersOf c start headers) fun _ models =>
      models.map (·.wireName) = (Assoc.keys headers).filter fun wireName => !isContentType wireName := by
  induction headers with
  | nil => exact ensures_pure _ _ _ fun _ _ => rfl
  | cons header rest ih =>
      rcases header with ⟨wireName, item⟩
      have keys : Assoc.keys ((wireName, item) :: rest) = wireName :: Assoc.keys rest := rfl
      rw [headersOf, keys, List.filter_cons]
      by_cases content : isContentType wireName = true
      · rw [if_pos content, if_neg (by simp [content])]
        exact ih
      · rw [if_neg content, if_pos (by simp [content])]
        apply ensures_later
        intro header
        have finish (m : Resolution ResolvedType) : Ensures (fun _ => True) (do
            let type ← m
            let others ← headersOf c start rest
            pure ({
              wireName
              type
              required := header.required
              description := header.description } :: others))
            fun _ models => models.map (·.wireName)
              = wireName :: (Assoc.keys rest).filter fun wireName => !isContentType wireName := by
          apply ensures_later
          intro type
          refine ensures_known _ _ _ _ _ ih fun others named => ?_
          exact ensures_pure _ _ _ fun _ _ => congrArg (wireName :: ·) named
        cases header.schema with
        | none => exact finish _
        | some s => exact finish _

theorem case_documents (operation : String) (status : StatusCode) (item : RefOr Response) :
    Ensures (fun _ => True) (caseOf c operation status item) fun _ made =>
      made.status = status ∧ ∃ response, c.document.response item = .ok response
        ∧ made.headers.map (·.wireName) = response.headerNames := by
  rw [caseOf]
  refine ensures_bind_lift _ _ _ _ fun response found => ?_
  apply ensures_later
  intro payload
  refine ensures_known _ _ _ _ _ (headers_wire_names c _ response.headers) fun headers named => ?_
  exact ensures_pure _ _ _ fun _ _ => ⟨rfl, response, found, named⟩

theorem cases_documents (operation : String) (responses : List (String × RefOr Response)) :
    Ensures (fun _ => True) (casesOf c operation responses) fun _ cases =>
      ∀ made ∈ cases, ∃ response, Documents c responses made response := by
  induction responses with
  | nil => exact ensures_pure _ _ _ fun _ _ => List.forall_mem_nil _
  | cons first rest ih =>
      rcases first with ⟨key, item⟩
      have later (cases : List ResultCase)
          (documents : ∀ made ∈ cases, ∃ response, Documents c rest made response) :
          ∀ made ∈ cases, ∃ response, Documents c ((key, item) :: rest) made response := by
        intro made member
        obtain ⟨response, key', item', documented, others⟩ := documents made member
        exact ⟨response, key', item', List.mem_cons_of_mem _ documented, others⟩
      rw [casesOf]
      cases parsed : parse? key with
      | none => exact fun r cases before found => later cases (ih r cases before found)
      | some status =>
          refine ensures_known _ _ _ _ _ (case_documents c operation status item) ?_
          rintro made ⟨isStatus, response, found, named⟩
          refine ensures_known _ _ _ _ _ ih fun others documents => ?_
          refine ensures_pure _ _ _ fun _ _ => List.forall_mem_cons.mpr ⟨?_, later others documents⟩
          exact ⟨response, key, item, List.mem_cons_self, isStatus ▸ parsed, found, named⟩

end Headers

/-- The headers of a case have the parameter names of the headers of its response, one for each of
these but for the content type. If they are written in ASCII, their names are different exactly if no
two are spelled with the same words: in other letter case, with other separators, or with none in
front of a numeral. -/
theorem header_names_distinct_iff (c : Catalog) (name : String) (o : Operation) (r : Registry)
    (result : ResultModel) (made : answer (ofOperation c name o) r = .ok result) :
    ∀ resultCase ∈ result.cases, ∃ response, Documents c o.responses resultCase response
      ∧ resultCase.headers.map (·.name) = response.headerNames.map parameterName
      ∧ ((∀ wireName ∈ response.headerNames, Text.Ascii wireName.toList) →
          ((resultCase.headers.map (·.name)).Nodup
            ↔ (response.headerNames.map parameterSpelling).Nodup)) := by
  intro resultCase member
  obtain ⟨cases, casesMade, made⟩ := answered_bind _ _ r result made
  cases made
  obtain ⟨response, documents⟩ :=
    cases_documents c name o.responses r cases trivial casesMade resultCase member
  obtain ⟨_, _, _, _, _, wireNames⟩ := id documents
  have names : resultCase.headers.map (·.name) = response.headerNames.map parameterName := by
    rw [← wireNames, List.map_map]
    rfl
  refine ⟨response, documents, names, fun ascii => ?_⟩
  rw [names]
  exact parameter_names_distinct_iff response.headerNames ascii

def answering (headers : List String) : Operation where
  responses := [("200", .item { headers := headers.map fun wireName => (wireName, .item {}) })]

theorem usual_headers_distinct : ∃ result,
    answer (ofOperation petCatalog "GetPet"
      (answering ["ETag", "Content-Type", "X-Rate-Limit", "X-Rate-Limit-2"])) {} = .ok result
      ∧ ∀ resultCase ∈ result.cases,
        resultCase.headers.map (·.name) = ["eTag", "xRateLimit", "xRateLimit2"]
          ∧ (resultCase.headers.map (·.name)).Nodup := by
  refine ⟨_, rfl, fun resultCase member => ⟨?_, ?_⟩⟩
  · obtain rfl := List.mem_singleton.mp member
    decide
  · obtain ⟨response, ⟨key, item, documented, _, found, _⟩, _, distinct⟩ :=
      header_names_distinct_iff petCatalog "GetPet"
        (answering ["ETag", "Content-Type", "X-Rate-Limit", "X-Rate-Limit-2"]) {} _ rfl resultCase member
    cases List.mem_singleton.mp documented
    cases found
    exact (distinct (by decide)).mpr (by decide)

theorem header_spellings_clash : ∃ result,
    answer (ofOperation petCatalog "GetPet" (answering ["X-Rate-Limit", "x_rate_limit"])) {} = .ok result
      ∧ ∃ resultCase ∈ result.cases,
        resultCase.headers.map (·.wireName) = ["X-Rate-Limit", "x_rate_limit"]
          ∧ resultCase.headers.map (·.name) = ["xRateLimit", "xRateLimit"]
          ∧ ¬ (resultCase.headers.map (·.name)).Nodup :=
  ⟨_, rfl, _, List.mem_singleton_self _, by decide, by decide, by decide⟩

end ResultModel

end OpenApi
