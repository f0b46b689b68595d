import OpenApi.Document.Basic
import OpenApi.Schema.Decode

set_option autoImplicit false

namespace OpenApi

open Decode

-- A reference, or the part itself. An object with a text under `$ref` is a reference, whatever
-- else it holds; what is wrong inside a value of neither form is not told.
def RefOr.decode {α : Type} (read : Value → Result α) (v : Value) : Result (RefOr α) :=
  match (v.get? "$ref").bind Value.asString? with
  | some target => .ok (.reference target)
  | none =>
    match read v with
    | .ok a => .ok (.item a)
    | .error _ => .error (.noVariant "RefOr")

namespace Info

def shape : Shape where
  name := "ShimInfo"
  fieldNames := ["title", "version", "description"]
  required := ["title", "version"]

def take (i : Info) (name : String) (v : Value) : Result Info :=
  match name with
  | "title" => do .ok { i with title := ← string v }
  | "version" => do .ok { i with version := ← string v }
  | "description" => do .ok { i with description := ← optional string v }
  | _ => .ok i

def decode : Value → Result Info := shape.read take {}

end Info

namespace Server

def shape : Shape where
  name := "ShimServer"
  fieldNames := ["url", "description"]
  required := ["url"]

def take (s : Server) (name : String) (v : Value) : Result Server :=
  match name with
  | "url" => do .ok { s with url := ← string v }
  | "description" => do .ok { s with description := ← optional string v }
  | _ => .ok s

def decode : Value → Result Server := shape.read take {}

end Server

namespace MediaType

def shape : Shape where
  name := "ShimMediaType"
  fieldNames := ["schema"]

def take (m : MediaType) (name : String) (v : Value) : Result MediaType :=
  match name with
  | "schema" => do .ok { m with schema := ← optional Schema.decode v }
  | _ => .ok m

def decode : Value → Result MediaType := shape.read take {}

end MediaType

namespace Parameter

def shape : Shape where
  name := "ShimParameter"
  fieldNames := []
  required := ["name", "in"]

def take (p : Parameter) (name : String) (v : Value) : Result Parameter :=
  match name with
  | "name" => do .ok { p with name := ← string v }
  | "in" => do .ok { p with location := ← string v }
  | "description" => do .ok { p with description := ← optional string v }
  | "required" => do .ok { p with required := ← boolean v }
  | "deprecated" => do .ok { p with deprecated := ← boolean v }
  | "schema" => do .ok { p with schema := ← optional Schema.decode v }
  | "content" => do .ok { p with content := ← optional (map MediaType.decode) v }
  | "style" => do .ok { p with style := ← optional string v }
  | "explode" => do .ok { p with explode := ← optional boolean v }
  | _ => .ok { p with extensions := Assoc.putSorted p.extensions name v }

def decode : Value → Result Parameter := shape.readObject take {}

end Parameter

namespace RequestBody

def shape : Shape where
  name := "ShimRequestBody"
  fieldNames := ["description", "content", "required"]
  defaulted := ["content", "required"]

def take (b : RequestBody) (name : String) (v : Value) : Result RequestBody :=
  match name with
  | "description" => do .ok { b with description := ← optional string v }
  | "content" => do .ok { b with content := ← map MediaType.decode v }
  | "required" => do .ok { b with required := ← boolean v }
  | _ => .ok b

def decode : Value → Result RequestBody := shape.read take {}

end RequestBody

namespace Header

def shape : Shape where
  name := "ShimHeader"
  fieldNames := ["description", "required", "schema"]
  defaulted := ["required"]

def take (h : Header) (name : String) (v : Value) : Result Header :=
  match name with
  | "description" => do .ok { h with description := ← optional string v }
  | "required" => do .ok { h with required := ← boolean v }
  | "schema" => do .ok { h with schema := ← optional Schema.decode v }
  | _ => .ok h

def decode : Value → Result Header := shape.read take {}

end Header

namespace Response

def shape : Shape where
  name := "ShimResponse"
  fieldNames := ["description", "headers", "content"]
  defaulted := ["headers", "content"]

def take (r : Response) (name : String) (v : Value) : Result Response :=
  match name with
  | "description" => do .ok { r with description := ← optional string v }
  | "headers" => do .ok { r with headers := ← map (RefOr.decode Header.decode) v }
  | "content" => do .ok { r with content := ← map MediaType.decode v }
  | _ => .ok r

def decode : Value → Result Response := shape.read take {}

end Response

def SecurityRequirement.decode : Value → Result SecurityRequirement := map (list string)

def isExtensionName (name : String) : Bool := "x-".toList.isPrefixOf name.toList

def decodeNamed {α : Type} (part : String) (read : Value → Result α) :
    List (String × Value) → Result (List (String × α))
  | [] => .ok []
  | (key, v) :: rest =>
    match read v with
    | .error fault => .error (.inside part key fault)
    | .ok a => do
      let others ← decodeNamed part read rest
      .ok ((key, a) :: others)

namespace Operation

def responsesOf : Value → Result (List (String × RefOr Response))
  | .obj fields =>
    decodeNamed "response" (RefOr.decode Response.decode)
      (fields.filter fun field => !isExtensionName field.1)
  | v => .error (.invalidType v "a map")

def shape : Shape where
  name := "ShimOperation"
  fieldNames := []

def take (o : Operation) (name : String) (v : Value) : Result Operation :=
  match name with
  | "operationId" => do .ok { o with operationId := ← optional string v }
  | "summary" => do .ok { o with summary := ← optional string v }
  | "description" => do .ok { o with description := ← optional string v }
  | "tags" => do .ok { o with tags := ← list string v }
  | "parameters" => do .ok { o with parameters := ← list (RefOr.decode Parameter.decode) v }
  | "requestBody" => do
    .ok { o with requestBody := ← optional (RefOr.decode RequestBody.decode) v }
  | "responses" => do .ok { o with responses := ← responsesOf v }
  | "deprecated" => do .ok { o with deprecated := ← boolean v }
  | "security" => do .ok { o with security := ← optional (list SecurityRequirement.decode) v }
  | _ => .ok { o with extensions := Assoc.putSorted o.extensions name v }

def decode : Value → Result Operation := shape.readObject take {}

end Operation

namespace PathItem

def shape : Shape where
  name := "ShimPathItem"
  fieldNames := []

def take (p : PathItem) (name : String) (v : Value) : Result PathItem :=
  match name with
  | "summary" => do .ok { p with summary := ← optional string v }
  | "description" => do .ok { p with description := ← optional string v }
  | "get" => do .ok { p with get := ← optional Operation.decode v }
  | "put" => do .ok { p with put := ← optional Operation.decode v }
  | "post" => do .ok { p with post := ← optional Operation.decode v }
  | "delete" => do .ok { p with delete := ← optional Operation.decode v }
  | "options" => do .ok { p with options := ← optional Operation.decode v }
  | "head" => do .ok { p with head := ← optional Operation.decode v }
  | "patch" => do .ok { p with patch := ← optional Operation.decode v }
  | "trace" => do .ok { p with trace := ← optional Operation.decode v }
  | "parameters" => do .ok { p with parameters := ← list (RefOr.decode Parameter.decode) v }
  | _ => .ok { p with extensions := Assoc.putSorted p.extensions name v }

def decode : Value → Result PathItem := shape.readObject take {}

end PathItem

def Paths.decode : Value → Result Paths
  | .obj fields => do
    let items ← decodeNamed "path item" PathItem.decode
      (fields.filter fun field => !isExtensionName field.1)
    let extensions := (fields.filter fun field => isExtensionName field.1).foldl
      (fun acc (name, v) => Assoc.putSorted acc name v) []
    .ok { items, extensions }
  | v => .error (.invalidType v "a map")

namespace ApiKeyScheme

def shape : Shape where
  name := "ShimApiKey"
  fieldNames := ["name", "in", "description"]
  required := ["name", "in"]

def take (s : ApiKeyScheme) (name : String) (v : Value) : Result ApiKeyScheme :=
  match name with
  | "name" => do .ok { s with name := ← string v }
  | "in" => do .ok { s with location := ← string v }
  | "description" => do .ok { s with description := ← optional string v }
  | _ => .ok s

end ApiKeyScheme

namespace HttpScheme

def shape : Shape where
  name := "ShimHttpAuth"
  fieldNames := ["scheme", "bearerFormat", "description"]
  required := ["scheme"]

def take (s : HttpScheme) (name : String) (v : Value) : Result HttpScheme :=
  match name with
  | "scheme" => do .ok { s with scheme := ← string v }
  | "bearerFormat" => do .ok { s with bearerFormat := ← optional string v }
  | "description" => do .ok { s with description := ← optional string v }
  | _ => .ok s

end HttpScheme

namespace DescribedScheme

def shape : Shape where
  name := "ShimDescribed"
  fieldNames := []

def take (s : DescribedScheme) (name : String) (v : Value) : Result DescribedScheme :=
  match name with
  | "description" => do .ok { s with description := ← optional string v }
  | _ => .ok { s with extra := Assoc.putSorted s.extra name v }

end DescribedScheme

namespace SecurityScheme

inductive Kind where
  | apiKey
  | http
  | oauth2
  | openIdConnect
  | mutualTls
deriving DecidableEq, Repr

def Kind.name : Kind → String
  | .apiKey => "apiKey"
  | .http => "http"
  | .oauth2 => "oauth2"
  | .openIdConnect => "openIdConnect"
  | .mutualTls => "mutualTLS"

def kinds : List Kind := [.apiKey, .http, .oauth2, .openIdConnect, .mutualTls]

def kindOf : Value → Result Kind
  | .str name =>
    match kinds.find? fun k => k.name == name with
    | some k => .ok k
    | none => .error (.unknownVariant name (kinds.map Kind.name))
  | v => .error (.invalidType v "variant identifier")

def details {α : Type} (shape : Shape) (take : α → String → Value → Result α) (start : α) :
    Value → Result α
  | .arr items =>
    shape.ofItems take start
      (.invalidLength items.length (Shape.elements shape.fieldNames.length ++ " in sequence"))
      items
  | v => shape.read take start v

def ofKind (v : Value) : Kind → Result SecurityScheme
  | .apiKey => (details ApiKeyScheme.shape ApiKeyScheme.take {} v).map .apiKey
  | .http => (details HttpScheme.shape HttpScheme.take {} v).map .http
  | .oauth2 => (DescribedScheme.shape.readObject DescribedScheme.take {} v).map .oauth2
  | .openIdConnect =>
    (DescribedScheme.shape.readObject DescribedScheme.take {} v).map .openIdConnect
  | .mutualTls => (DescribedScheme.shape.readObject DescribedScheme.take {} v).map .mutualTls

def decode : Value → Result SecurityScheme
  | .obj fields =>
    match fields.lookup "type" with
    | none => .error (.missingField "type")
    | some type => do
      ofKind (.obj (fields.filter fun field => field.1 != "type")) (← kindOf type)
  | .arr (type :: items) => do ofKind (.arr items) (← kindOf type)
  | .arr [] => .error (.missingField "type")
  | v => .error (.invalidType v "internally tagged enum ShimSecurityScheme")

end SecurityScheme

namespace Components

def shape : Shape where
  name := "ShimComponents"
  fieldNames := ["schemas", "parameters", "requestBodies", "responses", "headers",
    "securitySchemes"]
  defaulted := ["schemas", "parameters", "requestBodies", "responses", "headers",
    "securitySchemes"]

def take (c : Components) (name : String) (v : Value) : Result Components :=
  match name with
  | "schemas" => do .ok { c with schemas := ← map Schema.decode v }
  | "parameters" => do .ok { c with parameters := ← map Parameter.decode v }
  | "requestBodies" => do .ok { c with requestBodies := ← map RequestBody.decode v }
  | "responses" => do .ok { c with responses := ← map Response.decode v }
  | "headers" => do .ok { c with headers := ← map Header.decode v }
  | "securitySchemes" => do .ok { c with securitySchemes := ← map SecurityScheme.decode v }
  | _ => .ok c

def decode : Value → Result Components := shape.read take {}

end Components

namespace Contents

def shape : Shape where
  name := "ShimOpenApi"
  fieldNames := []

def take (c : Contents) (name : String) (v : Value) : Result Contents :=
  match name with
  | "openapi" => do .ok { c with openapi := ← optional string v }
  | "swagger" => do .ok { c with swagger := ← optional string v }
  | "info" => do .ok { c with info := ← optional Info.decode v }
  | "servers" => do .ok { c with servers := ← list Server.decode v }
  | "paths" => do .ok { c with paths := ← Paths.decode v }
  | "components" => do .ok { c with components := ← Components.decode v }
  | "security" => do .ok { c with security := ← optional (list SecurityRequirement.decode) v }
  | _ => .ok { c with extensions := Assoc.putSorted c.extensions name v }

def decode : Value → Result Contents := shape.readObject take {}

end Contents

end OpenApi
