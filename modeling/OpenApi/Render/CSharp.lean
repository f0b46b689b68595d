import OpenApi.Config.Reader
import OpenApi.Type.Resolved

set_option autoImplicit false

namespace OpenApi

structure CSharp where
  nullableReferenceTypes : Bool
  optionalAsNullable : Bool
  valueTypes : List String
deriving Repr

namespace CSharp

def primitive : Primitive → String
  | .int8 => "sbyte"
  | .uint8 => "byte"
  | .int16 => "short"
  | .int32 => "int"
  | .int64 => "long"
  | .uint32 => "uint"
  | .uint64 => "ulong"
  | .float => "float"
  | .double => "double"
  | .decimal => "decimal"
  | .boolean => "bool"
  | .string => "string"
  | .date => "DateOnly"
  | .dateTime => "DateTimeOffset"
  | .time => "TimeOnly"
  | .duration => "TimeSpan"
  | .uuid => "Guid"
  | .uri => "Uri"
  | .bytes => "byte[]"
  | .binary => "Stream"

def isValuePrimitive : Primitive → Bool
  | .string => false
  | .uri => false
  | .bytes => false
  | .binary => false
  | _ => true

def isValueType (c : CSharp) : TypeRef → Bool
  | .primitive p => isValuePrimitive p
  | .named name => c.valueTypes.contains name
  | .tuple _ _ => true
  | .union _ => true
  | .any => true
  | .array _ _ => false
  | .map _ => false

def untyped : String := "JsonElement"

def tuple : List String → String
  | [] => untyped
  | [item] => "ValueTuple<" ++ item ++ ">"
  | items => "(" ++ ", ".intercalate items ++ ")"

def mark (c : CSharp) (type : TypeRef) (nullable : Bool) (text : String) : String :=
  if nullable && (c.isValueType type || c.nullableReferenceTypes) then text ++ "?" else text

mutual

def shape (c : CSharp) : TypeRef → String
  | .primitive p => primitive p
  | .named name => name
  | .array item true => "HashSet<" ++ c.type item ++ ">"
  | .array item false => "List<" ++ c.type item ++ ">"
  | .map value => "Dictionary<string, " ++ c.type value ++ ">"
  | .tuple items none => tuple (c.types items)
  | .tuple _ (some _) => untyped
  | .union _ => untyped
  | .any => untyped
termination_by structural t => t

def type (c : CSharp) : ResolvedType → String
  | { type := t, nullable, .. } => c.mark t nullable (c.shape t)
termination_by structural t => t

def types (c : CSharp) : List ResolvedType → List String
  | [] => []
  | t :: rest => c.type t :: types c rest
termination_by structural ts => ts

end

def memberType (c : CSharp) (t : ResolvedType) (isOptional : Bool) : String :=
  c.type (t.orNull (isOptional && c.optionalAsNullable))

def optionalDefault (c : CSharp) (t : ResolvedType) (rendered : String) : String :=
  let unmarked := !c.nullableReferenceTypes && !c.isValueType t.type
  if rendered.toList.getLast? == some '?' || unmarked then "null" else "default"

def methodName (operation : String) : String := operation ++ "Async"

def returnType : Option String → String
  | some payload => "Task<" ++ payload ++ ">"
  | none => "Task"

end CSharp

end OpenApi
