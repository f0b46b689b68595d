import OpenApi.Schema.Basic

set_option autoImplicit false

namespace OpenApi

inductive Keyword where
  | reference
  | type
  | format
  | contentEncoding
  | contentMediaType
  | nullable
  | title
  | description
  | deprecated
  | readOnly
  | writeOnly
  | default
  | enumValues
  | constValue
  | properties
  | required
  | additionalProperties
  | minProperties
  | maxProperties
  | items
  | prefixItems
  | minItems
  | maxItems
  | uniqueItems
  | minLength
  | maxLength
  | pattern
  | minimum
  | maximum
  | exclusiveMinimum
  | exclusiveMaximum
  | multipleOf
  | allOf
  | oneOf
  | anyOf
  | not
  | discriminator
deriving DecidableEq, Repr

namespace Keyword

def name : Keyword → String
  | .reference => "$ref"
  | .type => "type"
  | .format => "format"
  | .contentEncoding => "contentEncoding"
  | .contentMediaType => "contentMediaType"
  | .nullable => "nullable"
  | .title => "title"
  | .description => "description"
  | .deprecated => "deprecated"
  | .readOnly => "readOnly"
  | .writeOnly => "writeOnly"
  | .default => "default"
  | .enumValues => "enum"
  | .constValue => "const"
  | .properties => "properties"
  | .required => "required"
  | .additionalProperties => "additionalProperties"
  | .minProperties => "minProperties"
  | .maxProperties => "maxProperties"
  | .items => "items"
  | .prefixItems => "prefixItems"
  | .minItems => "minItems"
  | .maxItems => "maxItems"
  | .uniqueItems => "uniqueItems"
  | .minLength => "minLength"
  | .maxLength => "maxLength"
  | .pattern => "pattern"
  | .minimum => "minimum"
  | .maximum => "maximum"
  | .exclusiveMinimum => "exclusiveMinimum"
  | .exclusiveMaximum => "exclusiveMaximum"
  | .multipleOf => "multipleOf"
  | .allOf => "allOf"
  | .oneOf => "oneOf"
  | .anyOf => "anyOf"
  | .not => "not"
  | .discriminator => "discriminator"

def parse? : String → Option Keyword
  | "$ref" => some .reference
  | "type" => some .type
  | "format" => some .format
  | "contentEncoding" => some .contentEncoding
  | "contentMediaType" => some .contentMediaType
  | "nullable" => some .nullable
  | "title" => some .title
  | "description" => some .description
  | "deprecated" => some .deprecated
  | "readOnly" => some .readOnly
  | "writeOnly" => some .writeOnly
  | "default" => some .default
  | "enum" => some .enumValues
  | "const" => some .constValue
  | "properties" => some .properties
  | "required" => some .required
  | "additionalProperties" => some .additionalProperties
  | "minProperties" => some .minProperties
  | "maxProperties" => some .maxProperties
  | "items" => some .items
  | "prefixItems" => some .prefixItems
  | "minItems" => some .minItems
  | "maxItems" => some .maxItems
  | "uniqueItems" => some .uniqueItems
  | "minLength" => some .minLength
  | "maxLength" => some .maxLength
  | "pattern" => some .pattern
  | "minimum" => some .minimum
  | "maximum" => some .maximum
  | "exclusiveMinimum" => some .exclusiveMinimum
  | "exclusiveMaximum" => some .exclusiveMaximum
  | "multipleOf" => some .multipleOf
  | "allOf" => some .allOf
  | "oneOf" => some .oneOf
  | "anyOf" => some .anyOf
  | "not" => some .not
  | "discriminator" => some .discriminator
  | _ => none

theorem parse?_name (k : Keyword) : parse? k.name = some k := by
  cases k <;> rfl

end Keyword

end OpenApi
