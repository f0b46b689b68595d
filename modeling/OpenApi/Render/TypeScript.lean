import OpenApi.Naming
import OpenApi.Type.Resolved

set_option autoImplicit false

namespace OpenApi.TypeScript

def primitive : Primitive → String
  | .int8 => "number"
  | .uint8 => "number"
  | .int16 => "number"
  | .int32 => "number"
  | .int64 => "number"
  | .uint32 => "number"
  | .uint64 => "number"
  | .float => "number"
  | .double => "number"
  | .decimal => "number"
  | .boolean => "boolean"
  | .string => "string"
  | .date => "string"
  | .dateTime => "string"
  | .time => "string"
  | .duration => "string"
  | .uuid => "string"
  | .uri => "string"
  | .bytes => "string"
  | .binary => "Blob"

def hasBar : List Char → Bool
  | ' ' :: '|' :: ' ' :: _ => true
  | _ :: rest => hasBar rest
  | [] => false

def arrayOf (item : String) : String :=
  if hasBar item.toList then "(" ++ item ++ ")[]" else item ++ "[]"

-- The marked expression of a nullable type; the untyped one needs no mark.
def mark (type : TypeRef) (nullable : Bool) (text : String) : String :=
  if nullable && !type.isAny then text ++ " | null" else text

mutual

def shape : TypeRef → String
  | .primitive p => primitive p
  | .named name => name
  | .array item _ => arrayOf (type item)
  | .map value => "Record<string, " ++ type value ++ ">"
  | .tuple items rest => "[" ++ ", ".intercalate (types items ++ spread rest) ++ "]"
  | .union members => " | ".intercalate (types members)
  | .any => "unknown"
termination_by structural t => t

def type : ResolvedType → String
  | { type := t, nullable, .. } => mark t nullable (shape t)
termination_by structural t => t

def types : List ResolvedType → List String
  | [] => []
  | t :: rest => type t :: types rest
termination_by structural ts => ts

def spread : Option ResolvedType → List String
  | none => []
  | some t => ["..." ++ arrayOf (type t)]
termination_by structural t => t

end

def methodName (operation : String) : String :=
  String.ofList (Text.lowerCamel operation.toList)

def returnType (payload : Option String) : String :=
  "Promise<" ++ payload.getD "void" ++ ">"

end OpenApi.TypeScript
