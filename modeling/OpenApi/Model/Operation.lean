import OpenApi.Document.Parse
import OpenApi.Model.Parameter
import OpenApi.Model.Result
import OpenApi.Policy.Operation

set_option autoImplicit false

namespace OpenApi

structure RequestBodyModel where
  type : ResolvedType
  contentType : String
  required : Bool
  description : Option String

def RequestBodyModel.kind (b : RequestBodyModel) : BodyKind := Media.bodyKind b.contentType

structure OperationModel where
  name : String
  operationId : Option String
  method : String
  path : String
  group : String
  tags : List String
  summary : Option String
  description : Option String
  deprecated : Bool
  parameters : List ParameterModel
  requestBody : Option RequestBodyModel
  result : ResultModel
  policies : OperationPolicies

namespace OperationModel

def groupOf (config : Config) (o : Operation) : String :=
  match (o.tags.head?.map Naming.typeName).filter fun name => !name.isEmpty with
  | some name => name
  | none => Naming.typeName config.defaultGroup

def requestBodyOf (c : Catalog) (name : String) (o : Operation) :
    Resolution (Option RequestBodyModel) :=
  match o.requestBody with
  | none => pure none
  | some item => do
    let body ← c.document.requestBody item
    let payload ← Payload.ofContent c body.content (name ++ "Request")
    pure <| payload.map fun p =>
      { type := p.type
        contentType := p.contentType
        required := body.required
        description := body.description }

def ofEntry (c : Catalog) (name : String) (entry : OperationEntry) :
    Resolution OperationModel := do
  let o := entry.operation
  let parameters ← ParameterModel.ofEntry c name entry
  let requestBody ← requestBodyOf c name o
  let result ← ResultModel.ofOperation c name o
  let policies ← OperationPolicies.read c.document entry
  pure {
    name
    operationId := o.operationId
    method := entry.method
    path := entry.path
    group := groupOf c.config o
    tags := o.tags
    summary := o.summary
    description := o.description
    deprecated := o.deprecated
    parameters
    requestBody
    result
    policies }

def ofEntries (c : Catalog) : List String → List OperationEntry → Resolution (List OperationModel)
  | _, [] => pure []
  | taken, entry :: rest =>
    if taken.contains entry.name then
      throw (.duplicateOperation entry.name entry.method entry.path)
    else do
      let first ← ofEntry c entry.name entry
      let others ← ofEntries c (taken ++ [entry.name]) rest
      pure (first :: others)

def all (c : Catalog) : Resolution (List OperationModel) := ofEntries c [] c.document.operations

-- The methods of operations, each put at the end of its group; a new group comes last.
def grouped {μ : Type} (method : OperationModel → μ) (operations : List OperationModel) :
    List (String × List μ) :=
  operations.foldl (fun groups o =>
    Assoc.put groups o.group ((groups.lookup o.group).getD [] ++ [method o])) []

end OperationModel

end OpenApi
