import OpenApi.Http.Media
import OpenApi.Http.Path
import OpenApi.Type.Resolve

set_option autoImplicit false

namespace OpenApi

structure Payload where
  type : ResolvedType
  contentType : String

namespace Payload

def typeOf (c : Catalog) (contentType : String) (m : MediaType) (hint : String) :
    Resolution ResolvedType :=
  match Media.bodyKind contentType, m.schema with
  | .binary, _ => pure (.ofPrimitive .binary)
  | .text, none => pure (.ofPrimitive .string)
  | _, some s => c.resolve s (some hint)
  | _, none => pure .any

def ofContent (c : Catalog) (content : List (String × MediaType)) (hint : String) :
    Resolution (Option Payload) :=
  match Media.select content with
  | none => pure none
  | some (contentType, m) => do
    let type ← typeOf c contentType m hint
    pure (some { type, contentType })

end Payload

structure ParameterModel where
  name : String
  wireName : String
  location : ParameterLocation
  type : ResolvedType
  required : Bool
  deprecated : Bool
  description : Option String
  style : String
  explode : Bool
  synthesized : Bool

def Parameter.schema? (p : Parameter) : Option Schema :=
  p.schema.or ((p.content.bind List.head?).bind fun (_, m) => m.schema)

namespace ParameterModel

-- The declared parameters by name and location: the last declaration at the place of the
-- first.
def merged (parameters : List Parameter) : List Parameter :=
  (Assoc.ofList (parameters.map fun p => ((p.name, p.location), p))).map (·.2)

def identifier (wireName : String) (others : List ParameterModel) : String :=
  Naming.unique (Naming.parameterName wireName) ("body" :: others.map (·.name))

def ofParameter (c : Catalog) (operation : String) (others : List ParameterModel)
    (location : ParameterLocation) (p : Parameter) : Resolution ParameterModel := do
  let type ←
    match p.schema? with
    | some s => c.resolve s (some (operation ++ Naming.typeName p.name))
    | none => pure (.ofPrimitive .string)
  let style := p.style.getD location.defaultStyle
  pure {
    name := identifier p.name others
    wireName := p.name
    location
    type
    required := location == .path || p.required
    deprecated := p.deprecated
    description := p.description
    style
    explode := p.explode.getD (style == "form")
    synthesized := false }

def ofPlaceholder (others : List ParameterModel) (wireName : String) : ParameterModel where
  name := identifier wireName others
  wireName := wireName
  location := .path
  type := .ofPrimitive .string
  required := true
  deprecated := false
  description := none
  style := ParameterLocation.path.defaultStyle
  explode := false
  synthesized := true

def isPathParameter (wireName : String) (p : ParameterModel) : Bool :=
  p.location == .path && p.wireName == wireName

def addDeclared (c : Catalog) (operation : String) (models : List ParameterModel) :
    List Parameter → Resolution (List ParameterModel)
  | [] => pure models
  | p :: rest =>
    match ParameterLocation.parse? p.location with
    | none => addDeclared c operation models rest
    | some location => do
      let model ← ofParameter c operation models location p
      addDeclared c operation (models ++ [model]) rest

def addPlaceholders (models : List ParameterModel) : List String → List ParameterModel
  | [] => models
  | wireName :: rest =>
    if models.any (isPathParameter wireName) then addPlaceholders models rest
    else addPlaceholders (models ++ [ofPlaceholder models wireName]) rest

def ofEntry (c : Catalog) (operation : String) (entry : OperationEntry) :
    Resolution (List ParameterModel) := do
  let parameters ←
    (entry.pathItem.parameters ++ entry.operation.parameters).mapM fun item =>
      c.document.parameter item
  let declared ← addDeclared c operation [] (merged parameters)
  pure (addPlaceholders declared (Naming.placeholders entry.path))

end ParameterModel

end OpenApi
