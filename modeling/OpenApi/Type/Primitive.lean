import OpenApi.Http.Media
import OpenApi.Json.Value
import OpenApi.Text.Words

set_option autoImplicit false

namespace OpenApi

inductive JsonType where
  | string
  | integer
  | number
  | boolean
  | array
  | object
  | null
deriving DecidableEq, Repr

namespace JsonType

def name : JsonType → String
  | .string => "string"
  | .integer => "integer"
  | .number => "number"
  | .boolean => "boolean"
  | .array => "array"
  | .object => "object"
  | .null => "null"

def parse? : String → Option JsonType
  | "string" => some .string
  | "integer" => some .integer
  | "number" => some .number
  | "boolean" => some .boolean
  | "array" => some .array
  | "object" => some .object
  | "null" => some .null
  | _ => none

-- The type of a literal. A number is an integer if it was written as one.
def ofValue : Value → JsonType
  | .null => .null
  | .bool _ => .boolean
  | .num n => if n.isInteger then .integer else .number
  | .str _ => .string
  | .arr _ => .array
  | .obj _ => .object

end JsonType

inductive Primitive where
  | int8
  | uint8
  | int16
  | int32
  | int64
  | uint32
  | uint64
  | float
  | double
  | decimal
  | boolean
  | string
  | date
  | dateTime
  | time
  | duration
  | uuid
  | uri
  | bytes
  | binary
deriving DecidableEq, Repr

namespace Primitive

def ofInteger (format : Option String) : Primitive :=
  match format with
  | some "int8" => .int8
  | some "uint8" => .uint8
  | some "int16" => .int16
  | some "int64" => .int64
  | some "uint32" => .uint32
  | some "uint64" => .uint64
  | _ => .int32

def ofNumber (format : Option String) : Primitive :=
  match format with
  | some "float" => .float
  | some "decimal" => .decimal
  | some "int32" => .int32
  | some "int64" => .int64
  | _ => .double

def isBase64 (encoding : String) : Bool :=
  Text.sameIgnoringCase encoding "base64" || Text.sameIgnoringCase encoding "base64url"

def ofTextFormat (format : Option String) : Primitive :=
  match format with
  | some "date-time" => .dateTime
  | some "date" => .date
  | some "time" => .time
  | some "duration" => .duration
  | some "uuid" => .uuid
  | some "guid" => .uuid
  | some "uri" => .uri
  | some "url" => .uri
  | some "decimal" => .decimal
  | _ => .string

-- The scalar of a string schema: an encoding decides first, then the two raw formats, then a
-- binary media type without encoding, then the other formats.
def ofString (format encoding media : Option String) : Primitive :=
  if encoding.any isBase64 then .bytes
  else if format = some "byte" then .bytes
  else if format = some "binary" then .binary
  else if encoding.isNone && media.any Media.isBinary then .binary
  else ofTextFormat format

def resolve? (type : JsonType) (format encoding media : Option String) : Option Primitive :=
  match type with
  | .integer => some (ofInteger format)
  | .number => some (ofNumber format)
  | .boolean => some .boolean
  | .string => some (ofString format encoding media)
  | .array => none
  | .object => none
  | .null => none

end Primitive

end OpenApi
