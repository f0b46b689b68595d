import OpenApi.Json.Value

set_option autoImplicit false

namespace OpenApi.Normalize

-- Places are known by names at any depth. The values of `items` and `additionalProperties` are not
-- among them, since their flags have a meaning of their own.
inductive Position where
  | schema
  | schemaList
  | schemaMap
  | other
deriving DecidableEq, Repr

def schemaNames : List String :=
  ["schema", "not", "contains", "propertyNames", "if", "then", "else", "unevaluatedItems",
    "unevaluatedProperties"]

def schemaListNames : List String := ["allOf", "oneOf", "anyOf", "prefixItems"]

def schemaMapNames : List String :=
  ["properties", "patternProperties", "$defs", "definitions", "dependentSchemas"]

def Position.ofName (name : String) : Position :=
  if schemaNames.contains name then .schema
  else if schemaListNames.contains name then .schemaList
  else if schemaMapNames.contains name then .schemaMap
  else .other

def ofBool : Bool → Value
  | true => .obj []
  | false => .obj [("not", .obj [])]

mutual

def value (position : Position) : Value → Value
  | .bool b =>
    match position with
    | .schema => ofBool b
    | _ => .bool b
  | .arr items => .arr (list (if position = .schemaList then .schema else .other) items)
  | .obj members => .obj (fields (position = .schemaMap) members)
  | v => v
termination_by structural v => v

def list (position : Position) : List Value → List Value
  | [] => []
  | v :: rest => value position v :: list position rest
termination_by structural items => items

-- The fields of an object, which stand for schemas themselves if the object maps to schemas.
def fields (map : Bool) : List (String × Value) → List (String × Value)
  | [] => []
  | (name, v) :: rest =>
    let position := if map && (v.asBool?).isSome then .schema else .ofName name
    (name, value position v) :: fields map rest
termination_by structural members => members

end

def onField (name : String) (change : Value → Value) : Value → Value
  | .obj members =>
    .obj (members.map fun (n, v) => if n = name then (n, change v) else (n, v))
  | v => v

def flagFields : Value → Value
  | .obj members =>
    .obj (members.map fun (n, v) =>
      match v with
      | .bool b => (n, ofBool b)
      | v => (n, v))
  | v => v

def document (v : Value) : Value :=
  value .other (onField "components" (onField "schemas" flagFields) v)

end OpenApi.Normalize
