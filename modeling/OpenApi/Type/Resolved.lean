import OpenApi.Type.Primitive

set_option autoImplicit false

namespace OpenApi

structure Bound where
  value : Number
  exclusive : Bool
deriving DecidableEq, Repr

structure Validation where
  minLength : Option Nat := none
  maxLength : Option Nat := none
  pattern : Option String := none
  minimum : Option Bound := none
  maximum : Option Bound := none
  multipleOf : Option Number := none
  minItems : Option Nat := none
  maxItems : Option Nat := none
  uniqueItems : Bool := false
  minProperties : Option Nat := none
  maxProperties : Option Nat := none
  format : Option String := none
  constValue : Option Value := none
deriving Repr

namespace Validation

def isEmpty (v : Validation) : Bool :=
  v.minLength.isNone
    && v.maxLength.isNone
    && v.pattern.isNone
    && v.minimum.isNone
    && v.maximum.isNone
    && v.multipleOf.isNone
    && v.minItems.isNone
    && v.maxItems.isNone
    && !v.uniqueItems
    && v.minProperties.isNone
    && v.maxProperties.isNone
    && v.format.isNone
    && v.constValue.isNone

def mergedWith (v overlay : Validation) : Validation where
  minLength := overlay.minLength <|> v.minLength
  maxLength := overlay.maxLength <|> v.maxLength
  pattern := overlay.pattern <|> v.pattern
  minimum := overlay.minimum <|> v.minimum
  maximum := overlay.maximum <|> v.maximum
  multipleOf := overlay.multipleOf <|> v.multipleOf
  minItems := overlay.minItems <|> v.minItems
  maxItems := overlay.maxItems <|> v.maxItems
  uniqueItems := v.uniqueItems || overlay.uniqueItems
  minProperties := overlay.minProperties <|> v.minProperties
  maxProperties := overlay.maxProperties <|> v.maxProperties
  format := overlay.format <|> v.format
  constValue := overlay.constValue <|> v.constValue

end Validation

mutual

inductive TypeRef where
  | primitive (p : Primitive)
  | named (name : String)
  | array (item : ResolvedType) (unique : Bool)
  | map (value : ResolvedType)
  | tuple (items : List ResolvedType) (rest : Option ResolvedType)
  | union (members : List ResolvedType)
  | any

structure ResolvedType where
  type : TypeRef
  nullable : Bool := false
  validation : Validation := {}
  description : Option String := none
  deprecated : Bool := false
  readOnly : Bool := false
  writeOnly : Bool := false
  default : Option Value := none

end

namespace TypeRef

def name? : TypeRef → Option String
  | .named name => some name
  | _ => none

def isAny : TypeRef → Bool
  | .any => true
  | _ => false

end TypeRef

namespace ResolvedType

def ofPrimitive (p : Primitive) : ResolvedType := { type := .primitive p }

def named (name : String) : ResolvedType := { type := .named name }

def mapOf (value : ResolvedType) : ResolvedType := { type := .map value }

def any : ResolvedType := { type := .any }

def orNull (t : ResolvedType) (nullable : Bool) : ResolvedType :=
  { t with nullable := t.nullable || nullable }

end ResolvedType

end OpenApi
