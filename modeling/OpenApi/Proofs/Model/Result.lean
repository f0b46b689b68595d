import OpenApi.Model.Result
import OpenApi.Proofs.Http.Status
import OpenApi.Proofs.Type.Steps

set_option autoImplicit false

namespace OpenApi.ResultModel

open Resolution
open StatusCode (IsPlain case_name_injective folded isStatus parse? plain_distinct
  statuses_distinct_iff)

section Cases

variable (c : Catalog) (operation : String)

theorem case_status (status : StatusCode) (item : RefOr Response) :
    Ensures (fun _ => True) (caseOf c operation status item)
      fun _ made => made.status = status := by
  apply ensures_later
  intro response
  apply ensures_later
  intro payload
  apply ensures_later
  intro headers
  exact ensures_pure _ _ _ fun _ _ => rfl

theorem cases_statuses (responses : List (String × RefOr Response)) :
    Ensures (fun _ => True) (casesOf c operation responses) fun _ cases =>
      cases.map (·.status) = (Assoc.keys responses).filterMap parse? := by
  induction responses with
  | nil => exact ensures_pure _ _ _ fun _ _ => rfl
  | cons response rest ih =>
      rcases response with ⟨key, item⟩
      have keys : Assoc.keys ((key, item) :: rest) = key :: Assoc.keys rest := rfl
      rw [casesOf, keys, List.filterMap_cons]
      cases parse? key with
      | none => exact ih
      | some status =>
          refine ensures_known _ (·.status = status) _ _ _ (case_status c operation status item) ?_
          intro first isFirst
          refine ensures_bind _ _ _ _ _ ih fun others => ?_
          exact ensures_pure _ _ _ fun _ isOthers => by rw [List.map_cons, isFirst, isOthers]

end Cases

def petCatalog : Catalog := .ofDocument { version := .v31, contents := {} } {}

def documented (keys : List String) : Operation where
  responses := keys.map fun key => (key, .item { description := some key })

/-- The cases of a result have different statuses exactly if their names are different, and both
exactly if no two keys are one status: they differ in more than blanks, case and leading zeros. Keys
that are written as usual are never one status. -/
theorem result_cases_distinct_iff (c : Catalog) (name : String) (o : Operation) (r : Registry)
    (result : ResultModel) (made : answer (ofOperation c name o) r = .ok result) :
    let keys := Assoc.keys o.responses
    result.cases.map (·.status) = keys.filterMap parse?
      ∧ ((result.cases.map (·.status)).Nodup ↔ ((keys.filter isStatus).map folded).Nodup)
      ∧ ((result.cases.map (·.name)).Nodup ↔ ((keys.filter isStatus).map folded).Nodup)
      ∧ (keys.Nodup → (∀ key ∈ keys, IsPlain key) →
          (result.cases.map (·.status)).Nodup ∧ (result.cases.map (·.name)).Nodup) := by
  intro keys
  obtain ⟨cases, casesMade, made⟩ := answered_bind _ _ r result made
  cases made
  have statuses := cases_statuses c name o.responses r cases trivial casesMade
  dsimp only
  have names : cases.map (·.name) = (cases.map (·.status)).map StatusCode.caseName := by
    rw [List.map_map]
    rfl
  rw [names, List.nodup_map_iff case_name_injective, statuses]
  have iff := statuses_distinct_iff keys
  refine ⟨rfl, iff, iff, fun distinct plain => ?_⟩
  exact ⟨plain_distinct keys distinct plain, plain_distinct keys distinct plain⟩

theorem usual_keys_distinct : ∃ result,
    answer (ofOperation petCatalog "GetPet"
      (documented ["200", "404", "4XX", "note", "default"])) {} = .ok result
      ∧ result.cases.map (·.name) = ["Ok", "NotFound", "Status4XX", "Default"]
      ∧ (result.cases.map (·.status)).Nodup ∧ (result.cases.map (·.name)).Nodup := by
  refine ⟨_, rfl, by decide, ?_⟩
  obtain ⟨_, statuses, names, _⟩ := result_cases_distinct_iff petCatalog "GetPet"
    (documented ["200", "404", "4XX", "note", "default"]) {} _ rfl
  exact ⟨statuses.mpr (by decide), names.mpr (by decide)⟩

theorem class_spellings_clash : ∃ result,
    answer (ofOperation petCatalog "GetPet"
      (documented ["4XX", "4xx"])) {} = .ok result
      ∧ result.cases.map (·.status) = [.range 4, .range 4]
      ∧ result.cases.map (·.name) = ["Status4XX", "Status4XX"]
      ∧ ¬ (result.cases.map (·.status)).Nodup ∧ ¬ (result.cases.map (·.name)).Nodup :=
  ⟨_, rfl, by decide, by decide, by decide, by decide⟩

end OpenApi.ResultModel
