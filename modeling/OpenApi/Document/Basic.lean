import OpenApi.Error
import OpenApi.Reference
import OpenApi.Schema.Basic

set_option autoImplicit false

namespace OpenApi

inductive SpecVersion where
  | v30
  | v31
deriving DecidableEq, Repr

abbrev Extensions := List (String × Value)

inductive RefOr (α : Type) where
  | reference (target : String)
  | item (a : α)
deriving Repr

structure Info where
  title : String := ""
  version : String := ""
  description : Option String := none
deriving DecidableEq, Repr

structure Server where
  url : String := ""
  description : Option String := none
deriving DecidableEq, Repr

structure MediaType where
  schema : Option Schema := none

structure Parameter where
  name : String := ""
  location : String := ""
  description : Option String := none
  required : Bool := false
  deprecated : Bool := false
  schema : Option Schema := none
  content : Option (List (String × MediaType)) := none
  style : Option String := none
  explode : Option Bool := none
  extensions : Extensions := []

structure RequestBody where
  description : Option String := none
  content : List (String × MediaType) := []
  required : Bool := false

structure Header where
  description : Option String := none
  required : Bool := false
  schema : Option Schema := none

structure Response where
  description : Option String := none
  headers : List (String × RefOr Header) := []
  content : List (String × MediaType) := []

abbrev SecurityRequirement := List (String × List String)

structure Operation where
  operationId : Option String := none
  summary : Option String := none
  description : Option String := none
  tags : List String := []
  parameters : List (RefOr Parameter) := []
  requestBody : Option (RefOr RequestBody) := none
  responses : List (String × RefOr Response) := []
  deprecated : Bool := false
  -- An empty list allows anonymous access.
  security : Option (List SecurityRequirement) := none
  extensions : Extensions := []

structure PathItem where
  summary : Option String := none
  description : Option String := none
  get : Option Operation := none
  put : Option Operation := none
  post : Option Operation := none
  delete : Option Operation := none
  options : Option Operation := none
  head : Option Operation := none
  patch : Option Operation := none
  trace : Option Operation := none
  parameters : List (RefOr Parameter) := []
  extensions : Extensions := []

structure Paths where
  items : List (String × PathItem) := []
  extensions : Extensions := []

structure DescribedScheme where
  description : Option String := none
  extra : Extensions := []

structure ApiKeyScheme where
  name : String := ""
  location : String := ""
  description : Option String := none
deriving DecidableEq, Repr

structure HttpScheme where
  scheme : String := ""
  bearerFormat : Option String := none
  description : Option String := none
deriving DecidableEq, Repr

inductive SecurityScheme where
  | apiKey (s : ApiKeyScheme)
  | http (s : HttpScheme)
  | oauth2 (s : DescribedScheme)
  | openIdConnect (s : DescribedScheme)
  | mutualTls (s : DescribedScheme)

structure Components where
  schemas : List (String × Schema) := []
  parameters : List (String × Parameter) := []
  requestBodies : List (String × RequestBody) := []
  responses : List (String × Response) := []
  headers : List (String × Header) := []
  securitySchemes : List (String × SecurityScheme) := []

structure Contents where
  openapi : Option String := none
  swagger : Option String := none
  info : Option Info := none
  servers : List Server := []
  paths : Paths := {}
  components : Components := {}
  security : Option (List SecurityRequirement) := none
  extensions : Extensions := []

structure Document where
  contents : Contents
  version : SpecVersion

structure OperationEntry where
  path : String
  method : String
  pathItem : PathItem
  operation : Operation

def PathItem.operations (item : PathItem) : List (String × Operation) :=
  [("GET", item.get), ("PUT", item.put), ("POST", item.post), ("DELETE", item.delete),
    ("OPTIONS", item.options), ("HEAD", item.head), ("PATCH", item.patch),
    ("TRACE", item.trace)].filterMap fun (method, operation) =>
      operation.map fun o => (method, o)

namespace Document

def find {α : Type} (components : List (String × α)) (wanted : Section) :
    RefOr α → Except Error α
  | .item a => .ok a
  | .reference target =>
    match (Reference.componentName? wanted target).bind fun name => components.lookup name with
    | some a => .ok a
    | none => .error (.unresolvedReference target)

def parameter (d : Document) : RefOr Parameter → Except Error Parameter :=
  find d.contents.components.parameters .parameters

def requestBody (d : Document) : RefOr RequestBody → Except Error RequestBody :=
  find d.contents.components.requestBodies .requestBodies

def response (d : Document) : RefOr Response → Except Error Response :=
  find d.contents.components.responses .responses

def header (d : Document) : RefOr Header → Except Error Header :=
  find d.contents.components.headers .headers

end Document

end OpenApi
