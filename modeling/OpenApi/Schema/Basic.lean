import OpenApi.Json.Value

set_option autoImplicit false

namespace OpenApi

inductive TypeSet where
  | single (name : String)
  | multiple (names : List String)
deriving DecidableEq, Repr

def TypeSet.names : TypeSet → List String
  | .single name => [name]
  | .multiple names => names

inductive OrBool (α : Type) where
  | bool (b : Bool)
  | schema (s : α)
deriving Repr

namespace OrBool

variable {α : Type}

def schema? : OrBool α → Option α
  | .schema s => some s
  | .bool _ => none

def isFalse : OrBool α → Bool
  | .bool b => !b
  | .schema _ => false

end OrBool

inductive ExclusiveBound where
  | flag (b : Bool)
  | value (n : Number)
deriving DecidableEq, Repr

structure Discriminator where
  propertyName : String
  mapping : List (String × String) := []
deriving DecidableEq, Repr

structure Schema where
  reference : Option String := none
  type : Option TypeSet := none
  format : Option String := none
  contentEncoding : Option String := none
  contentMediaType : Option String := none
  nullable : Option Bool := none
  title : Option String := none
  description : Option String := none
  deprecated : Option Bool := none
  readOnly : Option Bool := none
  writeOnly : Option Bool := none
  default : Option Value := none
  enumValues : Option (List Value) := none
  constValue : Option Value := none
  properties : List (String × Schema) := []
  required : List String := []
  additionalProperties : Option (OrBool Schema) := none
  minProperties : Option Nat := none
  maxProperties : Option Nat := none
  items : Option (OrBool Schema) := none
  prefixItems : List Schema := []
  minItems : Option Nat := none
  maxItems : Option Nat := none
  uniqueItems : Option Bool := none
  minLength : Option Nat := none
  maxLength : Option Nat := none
  pattern : Option String := none
  minimum : Option Number := none
  maximum : Option Number := none
  exclusiveMinimum : Option ExclusiveBound := none
  exclusiveMaximum : Option ExclusiveBound := none
  multipleOf : Option Number := none
  allOf : List Schema := []
  oneOf : List Schema := []
  anyOf : List Schema := []
  not : Option Schema := none
  discriminator : Option Discriminator := none
  extra : List (String × Value) := []

instance : Inhabited Schema := ⟨{}⟩

namespace Schema

def extension? (s : Schema) (key : String) : Option Value := s.extra.lookup key

def isComposition (s : Schema) : Bool :=
  !s.allOf.isEmpty || !s.oneOf.isEmpty || !s.anyOf.isEmpty

def unionMembers (s : Schema) : List Schema := if s.oneOf.isEmpty then s.anyOf else s.oneOf

def isNullOnly (s : Schema) : Bool :=
  match s.type with
  | some set => !set.names.isEmpty && set.names.all (· == "null")
  | none =>
    (match s.enumValues with
      | some [value] => value.isNull
      | _ => false)
    || (match s.constValue with
      | some value => value.isNull
      | none => false)

def hasUnionNull (s : Schema) : Bool := s.unionMembers.any isNullOnly

def isMarkedNullable (s : Schema) : Bool :=
  s.nullable == some true || (s.extension? "x-nullable").bind Value.asBool? == some true

def isNullableMarker (s : Schema) : Bool :=
  s.isMarkedNullable
    && s.reference.isNone
    && s.type.isNone
    && s.properties.isEmpty
    && !s.isComposition
    && s.items.isNone
    && s.enumValues.isNone

def isNullMember (s : Schema) : Bool := s.isNullOnly || s.isNullableMarker

-- The schema has structure that a reference beside it does not take.
def hasStructuralKeywords (s : Schema) : Bool :=
  !s.properties.isEmpty
    || s.additionalProperties.isSome
    || s.items.isSome
    || !s.prefixItems.isEmpty
    || s.isComposition
    || s.enumValues.isSome
    || s.discriminator.isSome
    || s.type.any fun set => set.names.any (· != "null")

end Schema

end OpenApi
