import OpenApi.Naming

set_option autoImplicit false

namespace OpenApi

inductive ParameterLocation where
  | path
  | query
  | header
  | cookie
deriving DecidableEq, Repr

namespace ParameterLocation

def parse? : String → Option ParameterLocation
  | "path" => some .path
  | "query" => some .query
  | "header" => some .header
  | "cookie" => some .cookie
  | _ => none

def defaultStyle : ParameterLocation → String
  | .path => "simple"
  | .header => "simple"
  | .query => "form"
  | .cookie => "form"

end ParameterLocation

inductive PathSegment where
  | literal (value : String)
  | parameter (name wireName : String)
deriving DecidableEq, Repr

-- The segments of a path template. The identifier of a placeholder is that of the declared path
-- parameter of its name, given by `identifiers`, else made from the placeholder itself.
def PathSegment.ofTemplate (path : String) (identifiers : List (String × String)) :
    List PathSegment :=
  (Naming.templateParts [] path.toList).map fun part =>
    match part with
    | .literal text => .literal (String.ofList text)
    | .placeholder name =>
      let wireName := String.ofList name
      match identifiers.lookup wireName with
      | some identifier => .parameter identifier wireName
      | none => .parameter (Naming.parameterName wireName) wireName

end OpenApi
