import OpenApi.Document.Basic
import OpenApi.Schema.Encode

set_option autoImplicit false

namespace OpenApi

open Encode

def SpecVersion.encode (v : SpecVersion) : Value :=
  .str <|
    match v with
    | .v30 => "V3_0"
    | .v31 => "V3_1"

def RefOr.encode {α : Type} (write : α → Value) : RefOr α → Value
  | .reference target => .obj [("$ref", .str target)]
  | .item a => write a

def Info.encode (i : Info) : Value :=
  .obj [
    ("title", .str i.title),
    ("version", .str i.version),
    ("description", optional .str i.description)]

def Server.encode (s : Server) : Value :=
  .obj [("url", .str s.url), ("description", optional .str s.description)]

def MediaType.encode (m : MediaType) : Value :=
  .obj [("schema", optional Schema.encode m.schema)]

def Parameter.encode (p : Parameter) : Value :=
  .obj ([
    ("name", .str p.name),
    ("in", .str p.location),
    ("description", optional .str p.description),
    ("required", .bool p.required),
    ("deprecated", .bool p.deprecated),
    ("schema", optional Schema.encode p.schema),
    ("content", optional (map MediaType.encode) p.content),
    ("style", optional .str p.style),
    ("explode", optional .bool p.explode)] ++ p.extensions)

def RequestBody.encode (b : RequestBody) : Value :=
  .obj [
    ("description", optional .str b.description),
    ("content", map MediaType.encode b.content),
    ("required", .bool b.required)]

def Header.encode (h : Header) : Value :=
  .obj [
    ("description", optional .str h.description),
    ("required", .bool h.required),
    ("schema", optional Schema.encode h.schema)]

def Response.encode (r : Response) : Value :=
  .obj [
    ("description", optional .str r.description),
    ("headers", map (RefOr.encode Header.encode) r.headers),
    ("content", map MediaType.encode r.content)]

def SecurityRequirement.encode (r : SecurityRequirement) : Value := map strings r

def Operation.encode (o : Operation) : Value :=
  .obj ([
    ("operationId", optional .str o.operationId),
    ("summary", optional .str o.summary),
    ("description", optional .str o.description),
    ("tags", strings o.tags),
    ("parameters", list (RefOr.encode Parameter.encode) o.parameters),
    ("requestBody", optional (RefOr.encode RequestBody.encode) o.requestBody),
    ("responses", map (RefOr.encode Response.encode) o.responses),
    ("deprecated", .bool o.deprecated),
    ("security", optional (list SecurityRequirement.encode) o.security)] ++ o.extensions)

def PathItem.encode (p : PathItem) : Value :=
  .obj ([
    ("summary", optional .str p.summary),
    ("description", optional .str p.description),
    ("get", optional Operation.encode p.get),
    ("put", optional Operation.encode p.put),
    ("post", optional Operation.encode p.post),
    ("delete", optional Operation.encode p.delete),
    ("options", optional Operation.encode p.options),
    ("head", optional Operation.encode p.head),
    ("patch", optional Operation.encode p.patch),
    ("trace", optional Operation.encode p.trace),
    ("parameters", list (RefOr.encode Parameter.encode) p.parameters)] ++ p.extensions)

def Paths.encode (p : Paths) : Value :=
  .obj [("items", map PathItem.encode p.items), ("extensions", .obj p.extensions)]

def DescribedScheme.encode (type : String) (s : DescribedScheme) : Value :=
  .obj ([("type", .str type), ("description", optional .str s.description)] ++ s.extra)

def SecurityScheme.encode : SecurityScheme → Value
  | .apiKey s =>
    .obj [
      ("type", .str "apiKey"),
      ("name", .str s.name),
      ("in", .str s.location),
      ("description", optional .str s.description)]
  | .http s =>
    .obj [
      ("type", .str "http"),
      ("scheme", .str s.scheme),
      ("bearerFormat", optional .str s.bearerFormat),
      ("description", optional .str s.description)]
  | .oauth2 s => s.encode "oauth2"
  | .openIdConnect s => s.encode "openIdConnect"
  | .mutualTls s => s.encode "mutualTLS"

def Components.encode (c : Components) : Value :=
  .obj [
    ("schemas", map Schema.encode c.schemas),
    ("parameters", map Parameter.encode c.parameters),
    ("requestBodies", map RequestBody.encode c.requestBodies),
    ("responses", map Response.encode c.responses),
    ("headers", map Header.encode c.headers),
    ("securitySchemes", map SecurityScheme.encode c.securitySchemes)]

def Contents.encode (c : Contents) : Value :=
  .obj ([
    ("openapi", optional .str c.openapi),
    ("swagger", optional .str c.swagger),
    ("info", optional Info.encode c.info),
    ("servers", list Server.encode c.servers),
    ("paths", c.paths.encode),
    ("components", c.components.encode),
    ("security", optional (list SecurityRequirement.encode) c.security)] ++ c.extensions)

end OpenApi
