import OpenApi.Schema.Keyword

set_option autoImplicit false

namespace OpenApi.Encode

abbrev Fields := List (String × Value)

variable {α : Type}

def natural (n : Nat) : Value := .num (.int n)

def strings (texts : List String) : Value := .arr (texts.map .str)

def list (write : α → Value) (items : List α) : Value := .arr (items.map write)

def map (write : α → Value) (entries : List (String × α)) : Value :=
  .obj (entries.map fun (key, item) => (key, write item))

def optional (write : α → Value) : Option α → Value
  | none => .null
  | some a => write a

def present (name : String) (write : α → Value) : Option α → Fields
  | none => []
  | some a => [(name, write a)]

def nonempty (name : String) (write : List α → Value) : List α → Fields
  | [] => []
  | a :: rest => [(name, write (a :: rest))]

end OpenApi.Encode

namespace OpenApi.Schema

open Encode

def typeSetValue : TypeSet → Value
  | .single name => .str name
  | .multiple names => strings names

def exclusiveValue : ExclusiveBound → Value
  | .flag b => .bool b
  | .value n => .num n

def discriminatorValue (d : Discriminator) : Value :=
  .obj [
    ("propertyName", .str d.propertyName),
    ("mapping", map .str d.mapping)]

mutual

def encode : Schema → Value
  | s@{ properties, additionalProperties, items, prefixItems, allOf, oneOf, anyOf, not, .. } =>
    .obj (
      present Keyword.reference.name .str s.reference ++
      present Keyword.type.name typeSetValue s.type ++
      present Keyword.format.name .str s.format ++
      present Keyword.contentEncoding.name .str s.contentEncoding ++
      present Keyword.contentMediaType.name .str s.contentMediaType ++
      present Keyword.nullable.name .bool s.nullable ++
      present Keyword.title.name .str s.title ++
      present Keyword.description.name .str s.description ++
      present Keyword.deprecated.name .bool s.deprecated ++
      present Keyword.readOnly.name .bool s.readOnly ++
      present Keyword.writeOnly.name .bool s.writeOnly ++
      present Keyword.default.name id s.default ++
      present Keyword.enumValues.name .arr s.enumValues ++
      present Keyword.constValue.name id s.constValue ++
      encodeProperties properties ++
      nonempty Keyword.required.name strings s.required ++
      encodeOrBool .additionalProperties additionalProperties ++
      present Keyword.minProperties.name natural s.minProperties ++
      present Keyword.maxProperties.name natural s.maxProperties ++
      encodeOrBool .items items ++
      encodeList .prefixItems prefixItems ++
      present Keyword.minItems.name natural s.minItems ++
      present Keyword.maxItems.name natural s.maxItems ++
      present Keyword.uniqueItems.name .bool s.uniqueItems ++
      present Keyword.minLength.name natural s.minLength ++
      present Keyword.maxLength.name natural s.maxLength ++
      present Keyword.pattern.name .str s.pattern ++
      present Keyword.minimum.name .num s.minimum ++
      present Keyword.maximum.name .num s.maximum ++
      present Keyword.exclusiveMinimum.name exclusiveValue s.exclusiveMinimum ++
      present Keyword.exclusiveMaximum.name exclusiveValue s.exclusiveMaximum ++
      present Keyword.multipleOf.name .num s.multipleOf ++
      encodeList .allOf allOf ++
      encodeList .oneOf oneOf ++
      encodeList .anyOf anyOf ++
      encodeNegated not ++
      present Keyword.discriminator.name discriminatorValue s.discriminator ++
      s.extra)
termination_by structural s => s

def encodeProperties : List (String × Schema) → Fields
  | [] => []
  | (name, s) :: rest => [(Keyword.properties.name, .obj ((name, encode s) :: encodeEntries rest))]
termination_by structural xs => xs

def encodeEntries : List (String × Schema) → Fields
  | [] => []
  | (name, s) :: rest => (name, encode s) :: encodeEntries rest
termination_by structural xs => xs

def encodeList (k : Keyword) : List Schema → Fields
  | [] => []
  | s :: rest => [(k.name, .arr (encode s :: encodeItems rest))]
termination_by structural xs => xs

def encodeItems : List Schema → List Value
  | [] => []
  | s :: rest => encode s :: encodeItems rest
termination_by structural xs => xs

def encodeOrBool (k : Keyword) : Option (OrBool Schema) → Fields
  | none => []
  | some (.bool b) => [(k.name, .bool b)]
  | some (.schema s) => [(k.name, encode s)]
termination_by structural x => x

def encodeNegated : Option Schema → Fields
  | none => []
  | some s => [(Keyword.not.name, encode s)]
termination_by structural x => x

end

end OpenApi.Schema
