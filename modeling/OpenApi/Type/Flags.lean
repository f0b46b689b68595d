import OpenApi.Schema.Basic
import OpenApi.Type.Primitive

set_option autoImplicit false

namespace OpenApi

structure TypeFlags where
  types : List JsonType := []
  includesNull : Bool := false
  -- The types were implied rather than declared.
  inferred : Bool := false
deriving DecidableEq, Repr

namespace TypeFlags

def push (types : List JsonType) (type : JsonType) : List JsonType :=
  if types.contains type then types else types ++ [type]

def declared (names : List String) : List JsonType :=
  (names.filterMap JsonType.parse?).foldl
    (fun types type => if type = .null then types else push types type) []

def declaresNull (names : List String) : Bool :=
  names.any fun name => JsonType.parse? name == some .null

-- The types of the literals other than null; with a fractional number among them all numbers
-- count as such.
def ofLiterals (values : List Value) : List JsonType :=
  let types := (values.filter fun value => !value.isNull).foldl
    (fun types value => push types (.ofValue value)) []
  if types.contains .number then types.filter (· != .integer) else types

def implied (s : Schema) : List JsonType :=
  if !s.properties.isEmpty || s.additionalProperties.isSome then [.object]
  else if s.items.isSome || !s.prefixItems.isEmpty then [.array]
  else
    match s.enumValues, s.constValue with
    | some values, _ => ofLiterals values
    | none, some value => if value.isNull then [] else [.ofValue value]
    | none, none => []

def impliesNull (s : Schema) : Bool :=
  s.properties.isEmpty && s.additionalProperties.isNone && s.items.isNone && s.prefixItems.isEmpty
    && s.enumValues.isNone && s.constValue.any Value.isNull

def ofSchema (s : Schema) : TypeFlags :=
  let nullable := s.isMarkedNullable || s.enumValues.any (·.any Value.isNull)
  match s.type with
  | some set =>
    { types := declared set.names
      includesNull := declaresNull set.names || nullable
      inferred := false }
  | none =>
    { types := implied s
      includesNull := nullable || impliesNull s
      inferred := true }

def single? (flags : TypeFlags) : Option JsonType :=
  match flags.types with
  | [type] => some type
  | _ => none

end TypeFlags

end OpenApi
