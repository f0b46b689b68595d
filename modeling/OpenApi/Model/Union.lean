import OpenApi.Component.Variant

set_option autoImplicit false

namespace OpenApi

inductive UnionKind where
  | oneOf
  | anyOf
  | inheritance
deriving DecidableEq, Repr

structure UnionDiscriminator where
  property : String
  variants : List Variant
deriving DecidableEq, Repr

structure UnionModel where
  name : String
  description : Option String
  kind : UnionKind
  discriminator : Option UnionDiscriminator
  members : List ResolvedType
  isAbstract : Bool
  nullable : Bool

namespace UnionModel

def membersOf (c : Catalog) (union : String) : Nat → List Schema → Resolution (List ResolvedType)
  | _, [] => pure []
  | n, m :: rest =>
    if m.isNullOnly then membersOf c union (n + 1) rest
    else do
      let type ← c.resolve m (some (Catalog.optionName union n))
      let others ← membersOf c union (n + 1) rest
      pure (type :: others)

def ofSchema (c : Catalog) (name : String) (s : Schema) : Resolution UnionModel := do
  let shape ← c.unionShape name s
  let members ← membersOf c name 1 s.unionMembers
  pure {
    name
    description := s.description
    kind := if shape.exclusive then .oneOf else .anyOf
    discriminator := shape.discriminator.map fun property => ⟨property, shape.variants⟩
    members
    isAbstract := shape.discriminator.isSome
    nullable := shape.nullable }

def ofHierarchy (c : Catalog) (name component : String) (s : Schema) : UnionModel :=
  let variants := c.hierarchyVariants component
  { name
    description := s.description
    kind := .inheritance
    discriminator := s.discriminator.map fun d => ⟨d.propertyName, variants⟩
    members := variants.map fun v => .named v.typeName
    isAbstract := !variants.isEmpty
    nullable := false }

end UnionModel

end OpenApi
