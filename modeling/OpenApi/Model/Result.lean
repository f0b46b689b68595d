import OpenApi.Http.Status
import OpenApi.Model.Parameter

set_option autoImplicit false

namespace OpenApi

structure HeaderModel where
  wireName : String
  type : ResolvedType
  required : Bool
  description : Option String

def HeaderModel.name (h : HeaderModel) : String := Naming.parameterName h.wireName

structure ResultCase where
  status : StatusCode
  description : Option String
  payload : Option Payload
  headers : List HeaderModel

namespace ResultCase

def name (r : ResultCase) : String := r.status.caseName

def isSuccess (r : ResultCase) : Bool := r.status.isSuccess

def body (r : ResultCase) : Option ResolvedType := r.payload.map (·.type)

def contentType (r : ResultCase) : Option String := r.payload.map (·.contentType)

end ResultCase

structure ResultModel where
  operation : String
  cases : List ResultCase

namespace ResultModel

def name (r : ResultModel) : String := r.operation ++ "Result"

def successBody (r : ResultModel) : Option ResultCase :=
  r.cases.find? fun c => c.isSuccess && c.payload.isSome

def errorCases (r : ResultModel) : List ResultCase := r.cases.filter (!·.isSuccess)

def isContentType (wireName : String) : Bool :=
  Text.asciiLower wireName.toList == "content-type".toList

def headersOf (c : Catalog) (start : String) :
    List (String × RefOr Header) → Resolution (List HeaderModel)
  | [] => pure []
  | (wireName, item) :: rest =>
    if isContentType wireName then headersOf c start rest
    else do
      let header ← c.document.header item
      let type ←
        match header.schema with
        | some s => c.resolve s (some (start ++ Naming.typeName wireName ++ "Header"))
        | none => pure (.ofPrimitive .string)
      let others ← headersOf c start rest
      pure ({
        wireName
        type
        required := header.required
        description := header.description } :: others)

def caseOf (c : Catalog) (operation : String) (status : StatusCode) (item : RefOr Response) :
    Resolution ResultCase := do
  let response ← c.document.response item
  let start := operation ++ status.caseName
  let payload ← Payload.ofContent c response.content (start ++ "Response")
  let headers ← headersOf c start response.headers
  pure { status, description := response.description, payload, headers }

def casesOf (c : Catalog) (operation : String) :
    List (String × RefOr Response) → Resolution (List ResultCase)
  | [] => pure []
  | (key, item) :: rest =>
    match StatusCode.parse? key with
    | none => casesOf c operation rest
    | some status => do
      let first ← caseOf c operation status item
      let others ← casesOf c operation rest
      pure (first :: others)

def ofOperation (c : Catalog) (name : String) (o : Operation) : Resolution ResultModel := do
  let cases ← casesOf c name o.responses
  pure { operation := name, cases }

end ResultModel

end OpenApi
