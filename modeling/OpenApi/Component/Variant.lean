import OpenApi.Component.FlatRecord
import OpenApi.Type.Resolve

set_option autoImplicit false

namespace OpenApi

structure Variant where
  value : String
  typeName : String
deriving DecidableEq, Repr

structure UnionShape where
  exclusive : Bool
  discriminator : Option String
  variants : List Variant
  nullable : Bool
deriving DecidableEq, Repr

namespace Catalog

def typeName (c : Catalog) (name : String) : String :=
  match c.component? name with
  | some found => found.typeName
  | none => Naming.typeName name

def refersTo (s : Schema) (name : String) : Bool :=
  s.allOf.any fun m => m.reference.bind (Reference.componentName? .schemas) == some name

def derivedTypes (c : Catalog) (base : String) : List String :=
  (c.components.filter fun d => d.name != base && refersTo d.schema base).map (·.name)

def discriminator? (c : Catalog) (name : String) : Option Discriminator :=
  (c.component? name).bind (·.schema.discriminator)

def discriminatorValue (c : Catalog) (base derived : String) : String :=
  let mapping := ((c.discriminator? base).map (·.mapping)).getD []
  match mapping.find? fun (_, target) => Reference.mappingTarget? target == some derived with
  | some (value, _) => value
  | none => derived

def hierarchyVariants (c : Catalog) (base : String) : List Variant :=
  (c.derivedTypes base).map fun derived =>
    { value := c.discriminatorValue base derived, typeName := c.typeName derived }

def mappingTargets (c : Catalog) :
    List (String × String) → Except Error (List (String × Component))
  | [] => .ok []
  | (value, target) :: rest => do
    match (Reference.mappingTarget? target).bind c.component? with
    | none => .error (.unresolvedReference target)
    | some found => do
      let others ← mappingTargets c rest
      .ok ((value, found) :: others)

def optionName (union : String) (n : Nat) : String := Naming.numbered (union ++ "Option") n

-- The variants that members of a union add to those mapped so far. An inline member without a
-- generated name adds none.
def memberVariants (c : Catalog) (union : String) :
    Nat → List String → List Schema → Resolution (List Variant)
  | _, _, [] => pure []
  | n, mapped, m :: rest =>
    if m.isNullOnly then memberVariants c union (n + 1) mapped rest
    else
      match m.reference with
      | some reference => do
        let found ← c.target reference
        if mapped.contains found.name then memberVariants c union (n + 1) mapped rest
        else do
          let others ← memberVariants c union (n + 1) (mapped ++ [found.name]) rest
          pure (⟨found.name, found.typeName⟩ :: others)
      | none => do
        let t ← c.resolve m (some (optionName union n))
        let others ← memberVariants c union (n + 1) mapped rest
        match t.type.name? with
        | some name => pure (⟨name, name⟩ :: others)
        | none => pure others

def unionShape (c : Catalog) (union : String) (s : Schema) : Resolution UnionShape := do
  let variants ←
    match s.discriminator with
    | none => pure []
    | some d => do
      let mapped ← c.mappingTargets d.mapping
      let others ← c.memberVariants union 1 (mapped.map (·.2.name)) s.unionMembers
      pure (mapped.map (fun (value, found) => ⟨value, found.typeName⟩) ++ others)
  pure {
    exclusive := !s.oneOf.isEmpty
    discriminator := s.discriminator.map (·.propertyName)
    variants
    nullable := s.hasUnionNull }

end Catalog

end OpenApi
