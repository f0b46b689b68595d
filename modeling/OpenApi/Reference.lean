import OpenApi.Naming
import OpenApi.Text.Utf8

set_option autoImplicit false

namespace OpenApi

inductive Section where
  | schemas
  | parameters
  | requestBodies
  | responses
  | headers
deriving DecidableEq, Repr

def Section.key : Section → String
  | .schemas => "schemas"
  | .parameters => "parameters"
  | .requestBodies => "requestBodies"
  | .responses => "responses"
  | .headers => "headers"

namespace Reference

def isExternal (reference : String) : Bool :=
  match reference.toList with
  | [] => false
  | c :: _ => c != '#'

def restoreSlashes : List Char → List Char
  | '~' :: '1' :: rest => '/' :: restoreSlashes rest
  | c :: rest => c :: restoreSlashes rest
  | [] => []

def restoreTildes : List Char → List Char
  | '~' :: '0' :: rest => '~' :: restoreTildes rest
  | c :: rest => c :: restoreTildes rest
  | [] => []

def decodeSegment (segment : List Char) : String :=
  String.ofList (restoreTildes (restoreSlashes (Text.percentDecode segment)))

def pointerSegments (reference : String) : List (List Char) :=
  Naming.splitAt '/' ((reference.toList.dropWhile (· == '#')).dropWhile (· == '/'))

def componentName? (wanted : Section) (reference : String) : Option String :=
  if isExternal reference then none
  else
    match pointerSegments reference with
    | [root, group, segment] =>
      if root = "components".toList ∧ group = wanted.key.toList then
        let name := decodeSegment segment
        if name.isEmpty then none else some name
      else none
    | _ => none

def mappingTarget? (value : String) : Option String :=
  if value.toList.head? = some '#' then componentName? .schemas value
  else if value.toList.contains '/' then none
  else some value

def toSchema (name : String) : String := "#/components/schemas/" ++ name

end Reference

end OpenApi
