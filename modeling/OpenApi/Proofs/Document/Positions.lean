import OpenApi.Document.Basic
import OpenApi.Document.Parse
import OpenApi.Proofs.Json.Assoc

set_option autoImplicit false

namespace OpenApi

def RefOr.here {α : Type} : RefOr α → List α
  | .item a => [a]
  | .reference _ => []

def contentSchemas (content : List (String × MediaType)) : List Schema :=
  content.filterMap (·.2.schema)

def Parameter.schemas (p : Parameter) : List Schema :=
  p.schema.toList ++ contentSchemas (p.content.getD [])

def RequestBody.schemas (b : RequestBody) : List Schema := contentSchemas b.content

def Header.schemas (h : Header) : List Schema := h.schema.toList

def Response.schemas (r : Response) : List Schema :=
  contentSchemas r.content ++ r.headers.flatMap (·.2.here.flatMap Header.schemas)

def Operation.schemas (o : Operation) : List Schema :=
  o.parameters.flatMap (·.here.flatMap Parameter.schemas)
    ++ o.requestBody.toList.flatMap (·.here.flatMap RequestBody.schemas)
    ++ o.responses.flatMap (·.2.here.flatMap Response.schemas)

def PathItem.schemas (p : PathItem) : List Schema :=
  p.parameters.flatMap (·.here.flatMap Parameter.schemas) ++ p.operations.flatMap (·.2.schemas)

def Components.partSchemas (c : Components) : List Schema :=
  c.parameters.flatMap (·.2.schemas) ++ c.requestBodies.flatMap (·.2.schemas)
    ++ c.responses.flatMap (·.2.schemas) ++ c.headers.flatMap (·.2.schemas)

namespace Document

def partSchemas (d : Document) : List Schema :=
  d.contents.components.partSchemas ++ d.contents.paths.items.flatMap (·.2.schemas)

variable (d : Document)

theorem found_cases {α : Type} (components : List (String × α)) (wanted : Section) (item : RefOr α)
    (a : α) (found : find components wanted item = .ok a) :
    a ∈ item.here ∨ ∃ name, (name, a) ∈ components := by
  cases item with
  | item other =>
      cases found
      exact .inl (List.mem_singleton_self a)
  | reference target =>
      rw [find] at found
      split at found
      · rename_i present
        cases found
        obtain ⟨name, _, looked⟩ := Option.bind_eq_some_iff.mp present
        exact .inr ⟨name, Assoc.mem_of_lookup components name a looked⟩
      · cases found

theorem found_schemas {α : Type} (components : List (String × α)) (schemas : α → List Schema)
    (inComponents : components.flatMap (fun entry => schemas entry.2) ⊆ d.partSchemas)
    (wanted : Section) (item : RefOr α) (inPlace : item.here.flatMap schemas ⊆ d.partSchemas) (a : α)
    (found : find components wanted item = .ok a) : schemas a ⊆ d.partSchemas := by
  intro s member
  rcases found_cases components wanted item a found with here | ⟨name, isComponent⟩
  · exact inPlace (List.mem_flatMap.mpr ⟨a, here, member⟩)
  · exact inComponents (List.mem_flatMap.mpr ⟨(name, a), isComponent, member⟩)

theorem component_schemas (s : Schema) (member : s ∈ d.contents.components.partSchemas) :
    s ∈ d.partSchemas := List.mem_append_left _ member

theorem parameter_schemas (item : RefOr Parameter)
    (inPlace : item.here.flatMap Parameter.schemas ⊆ d.partSchemas) (p : Parameter)
    (found : d.parameter item = .ok p) : p.schemas ⊆ d.partSchemas := by
  refine d.found_schemas _ Parameter.schemas (fun s member => ?_) .parameters item inPlace p found
  exact d.component_schemas s (by simp only [Components.partSchemas, List.mem_append]; tauto)

theorem body_schemas (item : RefOr RequestBody)
    (inPlace : item.here.flatMap RequestBody.schemas ⊆ d.partSchemas) (b : RequestBody)
    (found : d.requestBody item = .ok b) : b.schemas ⊆ d.partSchemas := by
  refine d.found_schemas _ RequestBody.schemas (fun s member => ?_) .requestBodies item inPlace b
    found
  exact d.component_schemas s (by simp only [Components.partSchemas, List.mem_append]; tauto)

theorem response_schemas (item : RefOr Response)
    (inPlace : item.here.flatMap Response.schemas ⊆ d.partSchemas) (r : Response)
    (found : d.response item = .ok r) : r.schemas ⊆ d.partSchemas := by
  refine d.found_schemas _ Response.schemas (fun s member => ?_) .responses item inPlace r found
  exact d.component_schemas s (by simp only [Components.partSchemas, List.mem_append]; tauto)

theorem header_schemas (item : RefOr Header)
    (inPlace : item.here.flatMap Header.schemas ⊆ d.partSchemas) (h : Header)
    (found : d.header item = .ok h) : h.schemas ⊆ d.partSchemas := by
  refine d.found_schemas _ Header.schemas (fun s member => ?_) .headers item inPlace h found
  exact d.component_schemas s (by simp only [Components.partSchemas, List.mem_append]; tauto)

theorem path_schemas (entry : OperationEntry) (member : entry ∈ d.operations) :
    entry.pathItem.schemas ⊆ d.partSchemas
      ∧ ∃ method, (method, entry.operation) ∈ entry.pathItem.operations := by
  obtain ⟨⟨path, item⟩, isPath, isOperation⟩ := List.mem_flatMap.mp member
  obtain ⟨⟨method, operation⟩, inItem, rfl⟩ := List.mem_map.mp isOperation
  refine ⟨fun s inSchemas => List.mem_append_right _ ?_, method, inItem⟩
  exact List.mem_flatMap.mpr ⟨(path, item), isPath, inSchemas⟩

theorem operation_schemas (entry : OperationEntry) (member : entry ∈ d.operations) :
    entry.operation.schemas ⊆ d.partSchemas := by
  obtain ⟨inPath, method, inItem⟩ := d.path_schemas entry member
  exact fun s inSchemas => inPath (List.mem_append_right _
    (List.mem_flatMap.mpr ⟨(method, entry.operation), inItem, inSchemas⟩))

end Document

end OpenApi
