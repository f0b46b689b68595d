import OpenApi.Component.Kind
import OpenApi.Config.Reader
import OpenApi.Document.Basic
import OpenApi.Type.Resolved

set_option autoImplicit false

namespace OpenApi

structure Component where
  name : String
  typeName : String
  kind : ComponentKind
  schema : Schema

def Schema.extendsHierarchy (schemas : List (String × Schema)) (s : Schema) : Bool :=
  s.allOf.any fun m =>
    match m.reference.bind (Reference.componentName? .schemas) with
    | some name => (schemas.lookup name).any fun target => target.discriminator.isSome
    | none => false

-- The kind of a component. One that only refers to the base of a hierarchy is a record of its
-- own.
def Schema.componentKind (schemas : List (String × Schema)) (s : Schema) : ComponentKind :=
  if s.kind = .alias ∧ s.extendsHierarchy schemas then .record else s.kind

namespace Component

def baseName (name : String) : String :=
  let typeName := Naming.typeName name
  if typeName.isEmpty then "Schema" else typeName

def classify (schemas : List (String × Schema)) :
    List String → List (String × Schema) → List Component
  | _, [] => []
  | taken, (name, s) :: rest =>
    let kind := s.componentKind schemas
    if kind.isNamed then
      let typeName := Naming.unique (baseName name) taken
      ⟨name, typeName, kind, s⟩ :: classify schemas (taken ++ [typeName]) rest
    else ⟨name, baseName name, kind, s⟩ :: classify schemas taken rest

def type (c : Component) : ResolvedType :=
  let nullable := (TypeFlags.ofSchema c.schema).includesNull
    || (c.kind == .union && c.schema.hasUnionNull)
  { ResolvedType.named c.typeName with nullable }

end Component

structure Catalog where
  document : Document
  config : Config
  components : List Component

namespace Catalog

def ofDocument (document : Document) (config : Config) : Catalog :=
  let schemas := document.contents.components.schemas
  { document, config, components := Component.classify schemas [] schemas }

def component? (c : Catalog) (name : String) : Option Component :=
  c.components.find? (·.name == name)

def component (c : Catalog) (name : String) : Except Error Component :=
  match c.component? name with
  | some found => .ok found
  | none => .error (.unresolvedReference (Reference.toSchema name))

def target (c : Catalog) (reference : String) : Except Error Component :=
  match (Reference.componentName? .schemas reference).bind c.component? with
  | some found => .ok found
  | none => .error (.unresolvedReference reference)

def typeNames (c : Catalog) : List String :=
  (c.components.filter (·.kind.isNamed)).map (·.typeName)

end Catalog

end OpenApi
