import OpenApi.Document.Decode
import OpenApi.Document.Normalize
import OpenApi.Error
import OpenApi.Http.Url
import OpenApi.Yaml.Reader

set_option autoImplicit false

namespace OpenApi

def SpecVersion.ofText? (text : String) : Option SpecVersion :=
  match (Naming.splitAt '.' text.toList).take 2 with
  | [['3'], ['0']] => some .v30
  | [['3'], ['1']] => some .v31
  | [['3'], ['2']] => some .v31
  | _ => none

def SpecVersion.detect (v : Value) : Except VersionFault SpecVersion :=
  match v.get? "swagger" with
  | some swagger => .error (.swagger swagger.asString?)
  | none =>
    let text :=
      match v.get? "openapi" with
      | some (.str s) => some s
      | some (.num n) => some n.text
      | _ => none
    match text with
    | none => .error .missing
    | some text =>
      match ofText? text with
      | some version => .ok version
      | none => .error (.unknown text)

def OperationEntry.name (e : OperationEntry) : String :=
  match (e.operation.operationId.map Naming.typeName).filter fun name => !name.isEmpty with
  | some name => name
  | none => Naming.operationName e.method e.path

namespace Document

def ofValue (v : Value) : Except Error Document :=
  match SpecVersion.detect v with
  | .error fault => .error (.unsupportedVersion fault)
  | .ok version =>
    match Contents.decode (Normalize.document v) with
    | .error fault => .error (.malformed fault)
    | .ok contents => .ok { contents, version }

def parse (text : String) : Except Error Document :=
  match Yaml.value? text with
  | none => .error .unreadable
  | some v => ofValue v

def title (d : Document) : String := (d.contents.info.map (·.title)).getD ""

def apiVersion (d : Document) : String := (d.contents.info.map (·.version)).getD ""

def basePath (d : Document) : Option String := do
  let server ← d.contents.servers.head?
  let path ← Url.path? server.url
  let trimmed := (path.reverse.dropWhile (· == '/')).reverse
  if trimmed.isEmpty then none else some (String.ofList trimmed)

def operations (d : Document) : List OperationEntry :=
  d.contents.paths.items.flatMap fun (path, pathItem) =>
    pathItem.operations.map fun (method, operation) => { path, method, pathItem, operation }

end Document

end OpenApi
