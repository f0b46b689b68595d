import OpenApi.Type.Resolve

set_option autoImplicit false

namespace OpenApi

structure TupleElement where
  name : String
  type : ResolvedType

structure TupleModel where
  name : String
  description : Option String
  elements : List TupleElement
  rest : Option ResolvedType
  minItems : Option Nat
  maxItems : Option Nat

namespace TupleModel

def isOpen (t : TupleModel) : Bool := t.rest.isSome

def elementsOf (c : Catalog) (tuple : String) : Nat → List Schema → Resolution (List TupleElement)
  | _, [] => pure []
  | n, s :: rest => do
    let name := Naming.numbered "Item" n
    let type ← c.resolve s (some (tuple ++ name))
    let others ← elementsOf c tuple (n + 1) rest
    pure (⟨name, type⟩ :: others)

def ofSchema (c : Catalog) (name : String) (s : Schema) : Resolution TupleModel := do
  let elements ← elementsOf c name 1 s.prefixItems
  let rest ← c.resolveRest s (some name)
  pure {
    name
    description := s.description
    elements
    rest
    minItems := s.minItems
    maxItems := s.maxItems }

end TupleModel

end OpenApi
