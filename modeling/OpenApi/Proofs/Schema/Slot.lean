import OpenApi.Proofs.Decode.Basic
import OpenApi.Schema.Decode

set_option autoImplicit false

namespace OpenApi.Schema

open Decode

structure Slot where
  {Content : Type}
  read : Value → Result Content
  get : Schema → Content
  put : Schema → Content → Schema

def slot : Keyword → Slot
  | .reference => ⟨optional string, (·.reference), fun s x => { s with reference := x }⟩
  | .type => ⟨optional typeSet, (·.type), fun s x => { s with type := x }⟩
  | .format => ⟨optional string, (·.format), fun s x => { s with format := x }⟩
  | .contentEncoding => ⟨optional string, (·.contentEncoding),
      fun s x => { s with contentEncoding := x }⟩
  | .contentMediaType => ⟨optional string, (·.contentMediaType),
      fun s x => { s with contentMediaType := x }⟩
  | .nullable => ⟨optional boolean, (·.nullable), fun s x => { s with nullable := x }⟩
  | .title => ⟨optional string, (·.title), fun s x => { s with title := x }⟩
  | .description => ⟨optional string, (·.description), fun s x => { s with description := x }⟩
  | .deprecated => ⟨optional boolean, (·.deprecated), fun s x => { s with deprecated := x }⟩
  | .readOnly => ⟨optional boolean, (·.readOnly), fun s x => { s with readOnly := x }⟩
  | .writeOnly => ⟨optional boolean, (·.writeOnly), fun s x => { s with writeOnly := x }⟩
  | .default => ⟨optional value, (·.default), fun s x => { s with default := x }⟩
  | .enumValues => ⟨optional (list value), (·.enumValues),
      fun s x => { s with enumValues := x }⟩
  | .constValue => ⟨optional value, (·.constValue), fun s x => { s with constValue := x }⟩
  | .properties => ⟨decodeProperties, (·.properties), fun s x => { s with properties := x }⟩
  | .required => ⟨list string, (·.required), fun s x => { s with required := x }⟩
  | .additionalProperties => ⟨decodeOrBool, (·.additionalProperties),
      fun s x => { s with additionalProperties := x }⟩
  | .minProperties => ⟨optional natural, (·.minProperties),
      fun s x => { s with minProperties := x }⟩
  | .maxProperties => ⟨optional natural, (·.maxProperties),
      fun s x => { s with maxProperties := x }⟩
  | .items => ⟨decodeOrBool, (·.items), fun s x => { s with items := x }⟩
  | .prefixItems => ⟨decodeList, (·.prefixItems), fun s x => { s with prefixItems := x }⟩
  | .minItems => ⟨optional natural, (·.minItems), fun s x => { s with minItems := x }⟩
  | .maxItems => ⟨optional natural, (·.maxItems), fun s x => { s with maxItems := x }⟩
  | .uniqueItems => ⟨optional boolean, (·.uniqueItems), fun s x => { s with uniqueItems := x }⟩
  | .minLength => ⟨optional natural, (·.minLength), fun s x => { s with minLength := x }⟩
  | .maxLength => ⟨optional natural, (·.maxLength), fun s x => { s with maxLength := x }⟩
  | .pattern => ⟨optional string, (·.pattern), fun s x => { s with pattern := x }⟩
  | .minimum => ⟨optional number, (·.minimum), fun s x => { s with minimum := x }⟩
  | .maximum => ⟨optional number, (·.maximum), fun s x => { s with maximum := x }⟩
  | .exclusiveMinimum => ⟨optional exclusiveBound, (·.exclusiveMinimum),
      fun s x => { s with exclusiveMinimum := x }⟩
  | .exclusiveMaximum => ⟨optional exclusiveBound, (·.exclusiveMaximum),
      fun s x => { s with exclusiveMaximum := x }⟩
  | .multipleOf => ⟨optional number, (·.multipleOf), fun s x => { s with multipleOf := x }⟩
  | .allOf => ⟨decodeList, (·.allOf), fun s x => { s with allOf := x }⟩
  | .oneOf => ⟨decodeList, (·.oneOf), fun s x => { s with oneOf := x }⟩
  | .anyOf => ⟨decodeList, (·.anyOf), fun s x => { s with anyOf := x }⟩
  | .not => ⟨decodeNegated, (·.not), fun s x => { s with not := x }⟩
  | .discriminator => ⟨optional discriminatorOf, (·.discriminator),
      fun s x => { s with discriminator := x }⟩

/-- A field whose name is a keyword is read into the slot of the keyword. -/
theorem decode_keyword_eq (s : Schema) (k : Keyword) (name : String) (v : Value)
    (rest : List (String × Value)) (parsed : Keyword.parse? name = some k) :
    decodeFields s ((name, v) :: rest)
      = (do let x ← (slot k).read v; decodeFields ((slot k).put s x) rest) := by
  rw [decodeFields, parsed]
  cases k <;> rfl

end OpenApi.Schema
