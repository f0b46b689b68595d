import OpenApi.Component.Kind
import OpenApi.Http.Path
import OpenApi.Http.Status
import OpenApi.Model.Enumeration
import OpenApi.Schema.Encode
import OpenApi.Type.Resolved

set_option autoImplicit false

namespace OpenApi

open Encode

namespace JsonType

def encode (t : JsonType) : Value := .str t.name

end JsonType

def Primitive.encode (p : Primitive) : Value :=
  .str <|
    match p with
    | .int8 => "Int8"
    | .uint8 => "UInt8"
    | .int16 => "Int16"
    | .int32 => "Int32"
    | .int64 => "Int64"
    | .uint32 => "UInt32"
    | .uint64 => "UInt64"
    | .float => "Float"
    | .double => "Double"
    | .decimal => "Decimal"
    | .boolean => "Boolean"
    | .string => "String"
    | .date => "Date"
    | .dateTime => "DateTime"
    | .time => "Time"
    | .duration => "Duration"
    | .uuid => "Uuid"
    | .uri => "Uri"
    | .bytes => "Bytes"
    | .binary => "Binary"

def ComponentKind.encode (k : ComponentKind) : Value :=
  .str <|
    match k with
    | .record => "Record"
    | .enumeration => "Enum"
    | .tuple => "Tuple"
    | .union => "Union"
    | .hierarchy => "Hierarchy"
    | .alias => "Alias"

def ParameterLocation.encode (l : ParameterLocation) : Value :=
  .str <|
    match l with
    | .path => "path"
    | .query => "query"
    | .header => "header"
    | .cookie => "cookie"

def BodyKind.encode (k : BodyKind) : Value :=
  .str <|
    match k with
    | .json => "Json"
    | .form => "Form"
    | .multipart => "Multipart"
    | .binary => "Binary"
    | .text => "Text"

def StatusCode.encode : StatusCode → Value
  | .code value => .obj [("kind", .str "code"), ("value", natural value)]
  | .range firstDigit => .obj [("kind", .str "range"), ("value", natural firstDigit)]
  | .default => .obj [("kind", .str "default")]

def PathSegment.encode : PathSegment → Value
  | .literal value => .obj [("kind", .str "literal"), ("value", .str value)]
  | .parameter name wireName =>
    .obj [("kind", .str "parameter"), ("name", .str name), ("wire_name", .str wireName)]

def Bound.encode (b : Bound) : Value :=
  .obj [("value", .num b.value), ("exclusive", .bool b.exclusive)]

def Encode.flag (name : String) (b : Bool) : Fields := if b then [(name, .bool true)] else []

def Validation.encode (v : Validation) : Value :=
  .obj (
    present "min_length" natural v.minLength ++
    present "max_length" natural v.maxLength ++
    present "pattern" .str v.pattern ++
    present "minimum" Bound.encode v.minimum ++
    present "maximum" Bound.encode v.maximum ++
    present "multiple_of" .num v.multipleOf ++
    present "min_items" natural v.minItems ++
    present "max_items" natural v.maxItems ++
    flag "unique_items" v.uniqueItems ++
    present "min_properties" natural v.minProperties ++
    present "max_properties" natural v.maxProperties ++
    present "format" .str v.format ++
    present "const_value" id v.constValue)

mutual

def TypeRef.encode : TypeRef → Value
  | .primitive p => .obj [("kind", .str "primitive"), ("primitive", p.encode)]
  | .named name => .obj [("kind", .str "named"), ("name", .str name)]
  | .array item unique =>
    .obj [("kind", .str "array"), ("item", item.encode), ("unique", .bool unique)]
  | .map value => .obj [("kind", .str "map"), ("value", value.encode)]
  | .tuple items rest =>
    .obj [("kind", .str "tuple"), ("items", .arr (encodeTypes items)), ("rest", encodeRest rest)]
  | .union members => .obj [("kind", .str "union"), ("members", .arr (encodeTypes members))]
  | .any => .obj [("kind", .str "any")]
termination_by structural t => t

def ResolvedType.encode : ResolvedType → Value
  | { type, nullable, validation, description, deprecated, readOnly, writeOnly, default } =>
    .obj (
      [("type", type.encode), ("nullable", .bool nullable)] ++
      (if validation.isEmpty then [] else [("validation", validation.encode)]) ++
      present "description" .str description ++
      [("deprecated", .bool deprecated), ("read_only", .bool readOnly),
        ("write_only", .bool writeOnly)] ++
      present "default" id default)
termination_by structural t => t

def encodeTypes : List ResolvedType → List Value
  | [] => []
  | t :: rest => t.encode :: encodeTypes rest
termination_by structural ts => ts

def encodeRest : Option ResolvedType → Value
  | none => .null
  | some t => t.encode
termination_by structural t => t

end

def EnumKind.encode (k : EnumKind) : Value :=
  .str <|
    match k with
    | .string => "String"
    | .integer => "Integer"

def EnumMember.encode (m : EnumMember) : Value :=
  .obj [("name", .str m.name), ("value", m.value), ("description", optional .str m.description)]

def EnumModel.encode (m : EnumModel) : Value :=
  .obj [
    ("name", .str m.name),
    ("description", optional .str m.description),
    ("kind", m.kind.encode),
    ("members", list EnumMember.encode m.members),
    ("nullable", .bool m.nullable),
    ("deprecated", .bool m.deprecated)]

end OpenApi
