import OpenApi.Component.Variant

set_option autoImplicit false

namespace OpenApi

structure RecordDiscriminator where
  property : String
  value : Option String := none
  mapping : List Variant := []
deriving DecidableEq, Repr

structure PropertyModel where
  name : String
  jsonName : String
  type : ResolvedType
  required : Bool
  isDiscriminator : Bool

def PropertyModel.isOptional (p : PropertyModel) : Bool := !p.required && p.type.default.isNone

structure RecordModel where
  name : String
  sourceName : Option String
  description : Option String
  base : Option String
  deprecated : Bool
  properties : List PropertyModel
  additionalProperties : Option ResolvedType
  discriminator : Option RecordDiscriminator

namespace RecordModel

def isAbstract (r : RecordModel) : Bool :=
  r.discriminator.any fun d => d.value.isNone && !d.mapping.isEmpty

-- The discriminator of the nearest base that declares one, with the value of this record: that of
-- its component, or its name.
def inheritedDiscriminator (c : Catalog) (name : String) (source base : Option String) :
    Except Error (Option RecordDiscriminator) :=
  match base with
  | none => .ok none
  | some base =>
    let declared := fun (ancestor : String) => (c.discriminator? ancestor).map fun d =>
      { property := d.propertyName
        value := some (match source with
          | some component => c.discriminatorValue ancestor component
          | none => name) }
    c.searchBases declared c.components.length [] base

def discriminatorOf (c : Catalog) (name : String) (source base : Option String) (s : Schema) :
    Except Error (Option RecordDiscriminator) :=
  match s.discriminator with
  | some d =>
    .ok (some {
      property := d.propertyName
      mapping := (source.map c.hierarchyVariants).getD [] })
  | none => inheritedDiscriminator c name source base

def propertyHint (record jsonName : String) : String :=
  record ++ String.ofList ((Naming.propertyName jsonName).toList.dropWhile (· == '_'))

def propertiesOf (c : Catalog) (record : String) (required : List String)
    (discriminator : Option RecordDiscriminator) :
    List String → List (String × Schema) → Resolution (List PropertyModel)
  | _, [] => pure []
  | taken, (jsonName, s) :: rest => do
    let name := Naming.unique (Naming.propertyName jsonName) taken
    let type ← c.resolve s (some (propertyHint record jsonName))
    let others ← propertiesOf c record required discriminator (taken ++ [name]) rest
    pure ({
      name
      jsonName
      type
      required := required.contains jsonName
      isDiscriminator := discriminator.any (·.property == jsonName) } :: others)

def additionalType (c : Catalog) (record : String) :
    Option (OrBool Schema) → Resolution (Option ResolvedType)
  | some (.schema s) => some <$> c.resolve s (some (record ++ "Value"))
  | some (.bool true) => pure (some .any)
  | _ => pure none

def ofSchema (c : Catalog) (name : String) (source : Option String) (s : Schema) :
    Resolution RecordModel := do
  let flat ← c.flatten source s
  let discriminator ← discriminatorOf c name source flat.base s
  let properties ← propertiesOf c name flat.required discriminator [name] flat.properties
  let additionalProperties ← additionalType c name flat.additionalProperties
  pure {
    name
    sourceName := source
    description := s.description
    base := (flat.base.bind c.component?).map (·.typeName)
    deprecated := s.deprecated.getD false
    properties
    additionalProperties
    discriminator }

end RecordModel

end OpenApi
