import OpenApi.Decode.Basic
import OpenApi.Schema.Keyword

set_option autoImplicit false

namespace OpenApi.Schema

open Decode

def typeSet : Value → Result TypeSet
  | .str name => .ok (.single name)
  | .arr items =>
    match items.mapM string with
    | .ok names => .ok (.multiple names)
    | .error _ => .error (.noVariant "SchemaTypeSet")
  | _ => .error (.noVariant "SchemaTypeSet")

def exclusiveBound : Value → Result ExclusiveBound
  | .bool b => .ok (.flag b)
  | .num n => .ok (.value n)
  | _ => .error (.noVariant "ExclusiveBound")

def discriminatorShape : Shape where
  name := "Discriminator"
  fieldNames := ["propertyName", "mapping"]
  required := ["propertyName"]
  defaulted := ["mapping"]

def putDiscriminator (d : Discriminator) (name : String) (v : Value) : Result Discriminator :=
  match name with
  | "propertyName" => do .ok { d with propertyName := ← string v }
  | "mapping" => do .ok { d with mapping := ← map string v }
  | _ => .ok d

def discriminatorOf : Value → Result Discriminator :=
  discriminatorShape.read putDiscriminator { propertyName := "" }

def orSchema (r : Result Schema) : Result (Option (OrBool Schema)) :=
  match r with
  | .ok s => .ok (some (.schema s))
  | .error _ => .error (.noVariant "BoolOrSchema")

mutual

def decode : Value → Result Schema
  | .obj fields => decodeFields {} fields
  | v => .error (.invalidType v "struct Schema")
termination_by structural v => v

def decodeFields (s : Schema) : List (String × Value) → Result Schema
  | [] => .ok s
  | (name, v) :: rest => do
    let s ← match Keyword.parse? name with
      | none => .ok { s with extra := Assoc.putSorted s.extra name v }
      | some .reference => do .ok { s with reference := ← optional string v }
      | some .type => do .ok { s with type := ← optional typeSet v }
      | some .format => do .ok { s with format := ← optional string v }
      | some .contentEncoding => do .ok { s with contentEncoding := ← optional string v }
      | some .contentMediaType => do .ok { s with contentMediaType := ← optional string v }
      | some .nullable => do .ok { s with nullable := ← optional boolean v }
      | some .title => do .ok { s with title := ← optional string v }
      | some .description => do .ok { s with description := ← optional string v }
      | some .deprecated => do .ok { s with deprecated := ← optional boolean v }
      | some .readOnly => do .ok { s with readOnly := ← optional boolean v }
      | some .writeOnly => do .ok { s with writeOnly := ← optional boolean v }
      | some .default => do .ok { s with default := ← optional value v }
      | some .enumValues => do .ok { s with enumValues := ← optional (list value) v }
      | some .constValue => do .ok { s with constValue := ← optional value v }
      | some .properties => do .ok { s with properties := ← decodeProperties v }
      | some .required => do .ok { s with required := ← list string v }
      | some .additionalProperties => do .ok { s with additionalProperties := ← decodeOrBool v }
      | some .minProperties => do .ok { s with minProperties := ← optional natural v }
      | some .maxProperties => do .ok { s with maxProperties := ← optional natural v }
      | some .items => do .ok { s with items := ← decodeOrBool v }
      | some .prefixItems => do .ok { s with prefixItems := ← decodeList v }
      | some .minItems => do .ok { s with minItems := ← optional natural v }
      | some .maxItems => do .ok { s with maxItems := ← optional natural v }
      | some .uniqueItems => do .ok { s with uniqueItems := ← optional boolean v }
      | some .minLength => do .ok { s with minLength := ← optional natural v }
      | some .maxLength => do .ok { s with maxLength := ← optional natural v }
      | some .pattern => do .ok { s with pattern := ← optional string v }
      | some .minimum => do .ok { s with minimum := ← optional number v }
      | some .maximum => do .ok { s with maximum := ← optional number v }
      | some .exclusiveMinimum => do .ok { s with exclusiveMinimum := ← optional exclusiveBound v }
      | some .exclusiveMaximum => do .ok { s with exclusiveMaximum := ← optional exclusiveBound v }
      | some .multipleOf => do .ok { s with multipleOf := ← optional number v }
      | some .allOf => do .ok { s with allOf := ← decodeList v }
      | some .oneOf => do .ok { s with oneOf := ← decodeList v }
      | some .anyOf => do .ok { s with anyOf := ← decodeList v }
      | some .not => do .ok { s with not := ← decodeNegated v }
      | some .discriminator => do .ok { s with discriminator := ← optional discriminatorOf v }
    decodeFields s rest
termination_by structural fields => fields

def decodeProperties : Value → Result (List (String × Schema))
  | .obj fields => decodeEntries fields
  | v => .error (.invalidType v "a map")
termination_by structural v => v

def decodeEntries : List (String × Value) → Result (List (String × Schema))
  | [] => .ok []
  | (name, v) :: rest => do
    let s ← decode v
    let others ← decodeEntries rest
    .ok ((name, s) :: others)
termination_by structural fields => fields

def decodeList : Value → Result (List Schema)
  | .arr items => decodeItems items
  | v => .error (.invalidType v "a sequence")
termination_by structural v => v

def decodeItems : List Value → Result (List Schema)
  | [] => .ok []
  | v :: rest => do
    let s ← decode v
    let others ← decodeItems rest
    .ok (s :: others)
termination_by structural items => items

def decodeOrBool : Value → Result (Option (OrBool Schema))
  | .null => .ok none
  | .bool b => .ok (some (.bool b))
  | .obj fields => orSchema (decodeFields {} fields)
  | _ => .error (.noVariant "BoolOrSchema")
termination_by structural v => v

def decodeNegated : Value → Result (Option Schema)
  | .null => .ok none
  | .obj fields => (decodeFields {} fields).map some
  | v => .error (.invalidType v "struct Schema")
termination_by structural v => v

end

end OpenApi.Schema
