import OpenApi.Model.Api
import OpenApi.Proofs.Type.Names

set_option autoImplicit false

namespace OpenApi

def RecordModel.types (r : RecordModel) : List ResolvedType :=
  r.properties.map (·.type) ++ r.additionalProperties.toList

def RecordModel.variants (r : RecordModel) : List Variant :=
  (r.discriminator.map (·.mapping)).getD []

def TupleModel.types (t : TupleModel) : List ResolvedType :=
  t.elements.map (·.type) ++ t.rest.toList

def UnionModel.variants (u : UnionModel) : List Variant :=
  (u.discriminator.map (·.variants)).getD []

def ResultCase.types (r : ResultCase) : List ResolvedType :=
  r.body.toList ++ r.headers.map (·.type)

def ResultModel.types (r : ResultModel) : List ResolvedType := r.cases.flatMap ResultCase.types

def OperationModel.types (o : OperationModel) : List ResolvedType :=
  o.parameters.map (·.type) ++ (o.requestBody.map (·.type)).toList ++ o.result.types

def HandlerMethod.types (m : HandlerMethod) : List ResolvedType :=
  m.parameters.map (·.type) ++ (m.requestBody.map (·.type)).toList

def ClientMethod.types (m : ClientMethod) : List ResolvedType :=
  m.parameters.map (·.type) ++ (m.requestBody.map (·.type)).toList ++ m.successType.toList
    ++ m.errorCases.filterMap (·.body)

namespace Api

def operationTypes (api : Api) : List ResolvedType :=
  api.results.flatMap ResultModel.types
    ++ api.handlers.flatMap (·.methods.flatMap HandlerMethod.types)
    ++ api.clients.flatMap (·.methods.flatMap ClientMethod.types)

def types (api : Api) : List ResolvedType :=
  api.records.flatMap RecordModel.types ++ api.tuples.flatMap TupleModel.types
    ++ api.unions.flatMap (·.members) ++ api.operationTypes

def references (api : Api) : List String :=
  api.types.flatMap ResolvedType.names ++ api.records.flatMap (·.base.toList)

def typeNames (api : Api) : List String :=
  api.records.map (·.name) ++ api.enumerations.map (·.name) ++ api.tuples.map (·.name)
    ++ api.unions.map (·.name)

def variants (api : Api) : List Variant :=
  api.unions.flatMap UnionModel.variants ++ api.records.flatMap RecordModel.variants

end Api

theorem ResultCase.body_mem (r : ResultCase) (t : ResolvedType) (present : r.body = some t) :
    t ∈ r.types := List.mem_append_left _ (Option.mem_toList.mpr present)

namespace OperationModel

variable (o : OperationModel)

theorem case_types (r : ResultCase) (member : r ∈ o.result.cases) : r.types ⊆ o.types := by
  intro t inCase
  exact List.mem_append_right _ (List.mem_flatMap.mpr ⟨r, member, inCase⟩)

theorem handler_types : (HandlerMethod.ofOperation o).types ⊆ o.types :=
  List.subset_append_left _ _

theorem client_types : (ClientMethod.ofOperation o).types ⊆ o.types := by
  intro t member
  simp only [ClientMethod.types, List.mem_append] at member
  rcases member with (common | success) | failure
  · exact List.mem_append_left _ (List.mem_append.mpr common)
  · obtain ⟨r, found, present⟩ := Option.bind_eq_some_iff.mp (Option.mem_toList.mp success)
    exact o.case_types r (List.mem_of_find?_eq_some found) (r.body_mem t present)
  · obtain ⟨e, isError, present⟩ := List.mem_filterMap.mp failure
    obtain ⟨r, isCase, rfl⟩ := List.mem_map.mp isError
    exact o.case_types r (List.mem_filter.mp isCase).1 (r.body_mem t present)

section Grouped

variable {μ : Type} (method : OperationModel → μ) (operations : List OperationModel)

def methodsOf (group : String) : List μ := (operations.filter (·.group == group)).map method

theorem methods_own : methodsOf method (operations ++ [o]) o.group
    = methodsOf method operations o.group ++ [method o] := by
  simp [methodsOf]

theorem methods_elsewhere (group : String) (other : group ≠ o.group) :
    methodsOf method (operations ++ [o]) group = methodsOf method operations group := by
  simp [methodsOf, other.symm]

theorem methods_stored (group : String) :
    (((operations.map (·.group)).eraseDups.map fun group =>
      (group, methodsOf method operations group)).lookup group).getD []
      = methodsOf method operations group := by
  by_cases known : group ∈ operations.map (·.group)
  · rw [List.lookup_graph _ (List.mem_eraseDups.mpr known), Option.getD_some]
  · have absent : group ∉ Assoc.keys ((operations.map (·.group)).eraseDups.map fun group =>
        (group, methodsOf method operations group)) := by
      simpa [Assoc.keys] using known
    have none : methodsOf method operations group = [] := by
      rw [methodsOf, List.map_eq_nil_iff, List.filter_eq_nil_iff]
      intro o member same
      exact known (List.mem_map.mpr ⟨o, member, beq_iff_eq.mp same⟩)
    rw [Assoc.lookup_absent _ _ absent, none, Option.getD_none]

theorem grouped_concat : grouped method (operations ++ [o])
    = Assoc.put (grouped method operations) o.group
      (((grouped method operations).lookup o.group).getD [] ++ [method o]) := by
  rw [grouped, List.foldl_append]
  rfl

theorem grouped_eq : grouped method operations
    = (operations.map (·.group)).eraseDups.map fun group =>
      (group, methodsOf method operations group) := by
  induction operations using List.reverseRecOn with
  | nil => rfl
  | append_singleton operations o ih =>
      have others (group : String) (other : group ≠ o.group) :=
        (o.methods_elsewhere method operations group other).symm
      rw [grouped_concat, ih, methods_stored, ← methods_own, List.map_append, List.map_singleton,
        firsts_concat]
      by_cases known : o.group ∈ operations.map (·.group)
      · have distinct := firsts_distinct (operations.map (·.group))
        rw [if_pos (List.contains_iff_mem.mpr known)]
        exact Assoc.put_known id _ _ _ o.group (by rwa [List.map_id]) (List.mem_eraseDups.mpr known)
          fun group _ => others group
      · have fresh := List.mem_eraseDups.not.mpr known
        rw [if_neg (List.contains_iff_mem.not.mpr known)]
        exact Assoc.put_new id _ _ _ o.group (by rwa [List.map_id]) fun group member =>
          others group fun same => fresh (same ▸ member)

theorem grouped_sublist (group : String × List μ) (member : group ∈ grouped method operations) :
    group.2.Sublist (operations.map method) := by
  rw [grouped_eq] at member
  obtain ⟨name, _, rfl⟩ := List.mem_map.mp member
  exact List.filter_sublist.map method

end Grouped

end OperationModel

theorem HandlerInterface.methods_made (operations : List OperationModel) (h : HandlerInterface)
    (member : h ∈ all operations) (method : HandlerMethod) (isMethod : method ∈ h.methods) :
    ∃ o ∈ operations, method = .ofOperation o := by
  obtain ⟨group, isGroup, rfl⟩ := List.mem_map.mp member
  have whole := OperationModel.grouped_sublist .ofOperation operations group isGroup
  obtain ⟨o, isOperation, made⟩ := List.mem_map.mp (whole.subset isMethod)
  exact ⟨o, isOperation, made.symm⟩

theorem ClientModel.methods_made (operations : List OperationModel) (basePath : Option String)
    (client : ClientModel) (member : client ∈ all operations basePath) (method : ClientMethod)
    (isMethod : method ∈ client.methods) : ∃ o ∈ operations, method = .ofOperation o := by
  obtain ⟨group, isGroup, rfl⟩ := List.mem_map.mp member
  have whole := OperationModel.grouped_sublist .ofOperation operations group isGroup
  obtain ⟨o, isOperation, made⟩ := List.mem_map.mp (whole.subset isMethod)
  exact ⟨o, isOperation, made.symm⟩

theorem handlers_types (operations : List OperationModel) (h : HandlerInterface)
    (member : h ∈ HandlerInterface.all operations) (t : ResolvedType)
    (inMethods : t ∈ h.methods.flatMap HandlerMethod.types) : ∃ o ∈ operations, t ∈ o.types := by
  obtain ⟨m, isMethod, inMethod⟩ := List.mem_flatMap.mp inMethods
  obtain ⟨o, isOperation, rfl⟩ := HandlerInterface.methods_made operations h member m isMethod
  exact ⟨o, isOperation, o.handler_types inMethod⟩

theorem clients_types (operations : List OperationModel) (basePath : Option String) (k : ClientModel)
    (member : k ∈ ClientModel.all operations basePath) (t : ResolvedType)
    (inMethods : t ∈ k.methods.flatMap ClientMethod.types) : ∃ o ∈ operations, t ∈ o.types := by
  obtain ⟨m, isMethod, inMethod⟩ := List.mem_flatMap.mp inMethods
  obtain ⟨o, isOperation, rfl⟩ :=
    ClientModel.methods_made operations basePath k member m isMethod
  exact ⟨o, isOperation, o.client_types inMethod⟩

end OpenApi
