import OpenApi.Schema.Basic

set_option autoImplicit false

namespace OpenApi

def sameOption {α : Type} (same : α → α → Bool) : Option α → Option α → Bool
  | none, none => true
  | some a, some b => same a b
  | _, _ => false

def sameMapping (xs ys : List (String × String)) : Bool :=
  xs.length == ys.length && xs.all fun (key, value) => ys.lookup key == some value

def ExclusiveBound.same : ExclusiveBound → ExclusiveBound → Bool
  | .flag a, .flag b => a == b
  | .value a, .value b => a.same b
  | _, _ => false

def Discriminator.same (a b : Discriminator) : Bool :=
  a.propertyName == b.propertyName && sameMapping a.mapping b.mapping

namespace Schema

def sameScalars (a b : Schema) : Bool :=
  a.reference == b.reference
    && a.type == b.type
    && a.format == b.format
    && a.contentEncoding == b.contentEncoding
    && a.contentMediaType == b.contentMediaType
    && a.nullable == b.nullable
    && a.title == b.title
    && a.description == b.description
    && a.deprecated == b.deprecated
    && a.readOnly == b.readOnly
    && a.writeOnly == b.writeOnly
    && sameOption Value.same a.default b.default
    && sameOption Value.sameItems a.enumValues b.enumValues
    && sameOption Value.same a.constValue b.constValue
    && a.required == b.required
    && a.minProperties == b.minProperties
    && a.maxProperties == b.maxProperties
    && a.minItems == b.minItems
    && a.maxItems == b.maxItems
    && a.uniqueItems == b.uniqueItems
    && a.minLength == b.minLength
    && a.maxLength == b.maxLength
    && a.pattern == b.pattern
    && sameOption Number.same a.minimum b.minimum
    && sameOption Number.same a.maximum b.maximum
    && sameOption ExclusiveBound.same a.exclusiveMinimum b.exclusiveMinimum
    && sameOption ExclusiveBound.same a.exclusiveMaximum b.exclusiveMaximum
    && sameOption Number.same a.multipleOf b.multipleOf
    && sameOption Discriminator.same a.discriminator b.discriminator
    && Value.same (.obj a.extra) (.obj b.extra)

mutual

def same : Schema → Schema → Bool
  | a@{ properties, additionalProperties, items, prefixItems, allOf, oneOf, anyOf, not, .. }, b =>
    sameScalars a b
      && properties.length == b.properties.length
      && sameProperties properties b.properties
      && sameOrBool additionalProperties b.additionalProperties
      && sameOrBool items b.items
      && sameList prefixItems b.prefixItems
      && sameList allOf b.allOf
      && sameList oneOf b.oneOf
      && sameList anyOf b.anyOf
      && sameNegated not b.not
termination_by structural s => s

def sameProperties : List (String × Schema) → List (String × Schema) → Bool
  | [], _ => true
  | (name, a) :: rest, ys =>
    (match ys.lookup name with
      | some b => a.same b
      | none => false) && sameProperties rest ys
termination_by structural xs => xs

def sameOrBool : Option (OrBool Schema) → Option (OrBool Schema) → Bool
  | none, none => true
  | some (.bool a), some (.bool b) => a == b
  | some (.schema a), some (.schema b) => a.same b
  | _, _ => false
termination_by structural x => x

def sameList : List Schema → List Schema → Bool
  | [], [] => true
  | a :: xs, b :: ys => a.same b && sameList xs ys
  | _, _ => false
termination_by structural xs => xs

def sameNegated : Option Schema → Option Schema → Bool
  | none, none => true
  | some a, some b => a.same b
  | _, _ => false
termination_by structural x => x

end

end Schema

end OpenApi
