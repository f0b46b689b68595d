import OpenApi.Component.Kind
import OpenApi.Error
import OpenApi.Naming
import OpenApi.Schema.Same

set_option autoImplicit false

namespace OpenApi

structure SynthesizedType where
  name : String
  schema : Schema
  kind : ComponentKind

structure Registry where
  taken : List SynthesizedType := []
  pending : List SynthesizedType := []

namespace Registry

def types (r : Registry) : List SynthesizedType := r.taken ++ r.pending

def names (r : Registry) : List String := r.types.map (·.name)

def standsFor (r : Registry) (s : Schema) (name : String) : Bool :=
  (r.types.find? (·.name == name)).any fun t => t.schema.same s

def reusable? (r : Registry) (reserved : List String) (base : String) (s : Schema) :
    Option String :=
  let used := reserved ++ r.names
  ((Naming.candidates base used.length).takeWhile used.contains).find? (r.standsFor s)

-- The name for a schema that asks for `base`: that of an equal schema, or a free one. No type
-- gets a reserved name.
def register (reserved : List String) (base : String) (s : Schema) (kind : ComponentKind)
    (r : Registry) : String × Registry :=
  match r.reusable? reserved base s with
  | some name => (name, r)
  | none =>
    let name := Naming.unique base (reserved ++ r.names)
    (name, { r with pending := r.pending ++ [⟨name, s, kind⟩] })

def take (r : Registry) : List SynthesizedType × Registry :=
  (r.pending, { taken := r.types, pending := [] })

end Registry

-- What registers types, and goes on with them after a failure.
abbrev Resolution := ExceptT Error (StateM Registry)

def Resolution.takePending : Resolution (List SynthesizedType) := modifyGet Registry.take

end OpenApi
