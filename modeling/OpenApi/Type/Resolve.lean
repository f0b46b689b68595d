import OpenApi.Component.Catalog
import OpenApi.Schema.Constraints
import OpenApi.Type.Registry

set_option autoImplicit false

namespace OpenApi

def ResolvedType.annotated (t : ResolvedType) (s : Schema) : ResolvedType :=
  { t with
    validation := t.validation.mergedWith s.validation
    description := s.description <|> t.description
    deprecated := s.deprecated.getD t.deprecated
    readOnly := s.readOnly.getD t.readOnly
    writeOnly := s.writeOnly.getD t.writeOnly
    default := s.default <|> t.default }

def Schema.isEnumerable (s : Schema) : Bool :=
  let single := (TypeFlags.ofSchema s).single?
  (single == some .string || single == some .integer)
    && (s.enumValues.any fun values => decide (1 < (values.filter (!·.isNull)).length))

namespace Catalog

def synthesize (c : Catalog) (hint : Option String) (s : Schema) (kind : ComponentKind) :
    Resolution (Option String) :=
  match hint.map Naming.typeName with
  | none => pure none
  | some base =>
    if !c.config.synthesizeInlineTypes || base.isEmpty then pure none
    else some <$> modifyGet (Registry.register c.typeNames base s kind)

section Effects

variable {m : Type → Type} [Monad m] [MonadLiftT Resolution m]

def synthesizeOr (c : Catalog) (hint : Option String) (s : Schema) (kind : ComponentKind)
    (unnamed : m ResolvedType) : m ResolvedType := do
  match ← c.synthesize hint s kind with
  | some name => pure (.named name)
  | none => unnamed

-- The type of values of one JSON type. `item` and `value` resolve the items of an array and the
-- values of a map by the name of their position.
def typeOf (c : Catalog) (s : Schema) (item value : Option String → m ResolvedType)
    (hint : Option String) : JsonType → m ResolvedType
  | .array => do
    let item ← item (hint.map (· ++ "Item"))
    pure { type := .array item (c.config.uniqueItemsAsSet && s.uniqueItems == some true) }
  | .object =>
    if s.properties.isEmpty then ResolvedType.mapOf <$> value (hint.map (· ++ "Value"))
    else c.synthesizeOr hint s .record (pure (.mapOf .any))
  | scalar =>
    pure <|
      match Primitive.resolve? scalar s.format s.contentEncoding s.contentMediaType with
      | some p => .ofPrimitive p
      | none => .any

def plainType (c : Catalog) (s : Schema) (item value : Option String → m ResolvedType)
    (hint : Option String) : m ResolvedType :=
  match (TypeFlags.ofSchema s).types with
  | [] => pure .any
  | [type] => c.typeOf s item value hint type
  | types => do
    let members ← types.mapM (c.typeOf s item value none)
    pure { type := .union members }

def composedType (c : Catalog) (s : Schema) (only : m ResolvedType)
    (hint : Option String) : m ResolvedType := do
  let count := (s.allOf.filter (!·.isNullMember)).length
  let t ←
    if count = 0 then pure .any
    else if count = 1 ∧ s.properties.isEmpty then only
    else c.synthesizeOr hint s .record (pure .any)
  pure (t.orNull (s.allOf.any Schema.isNullMember))

def unionType (c : Catalog) (s : Schema) (only : m ResolvedType)
    (members : m (List ResolvedType)) (hint : Option String) :
    m ResolvedType := do
  let count := (s.unionMembers.filter (!·.isNullOnly)).length
  let t ←
    if count = 0 then pure .any
    else if count = 1 ∧ s.discriminator.isNone then only
    else c.synthesizeOr hint s .union do
      let members ← members
      pure { type := .union members }
  pure (t.orNull s.hasUnionNull)

def isOpen : Option (OrBool Schema) → Bool
  | some (.bool b) => b
  | some (.schema _) => true
  | none => false

def restType (items : Option (OrBool Schema))
    (rest : Option String → m ResolvedType) (hint : Option String) :
    m (Option ResolvedType) :=
  if isOpen items then some <$> rest (hint.map (· ++ "Rest")) else pure none

mutual

def resolveWith (c : Catalog) (enter : Component → m ResolvedType) :
    Schema → Option String → m ResolvedType
  | s@{ additionalProperties, items, prefixItems, allOf, oneOf, anyOf, .. }, hint => do
    let item := fun name => resolveOrAny c enter items name
    let value := fun name => resolveOrAny c enter additionalProperties name
    let t ←
      match s.reference with
      | some reference => do
        let found ← (c.target reference : Resolution Component)
        if found.kind.isNamed then pure found.type else enter found
      | none =>
        if !allOf.isEmpty then
          c.composedType s (resolveOnly c enter Schema.isNullMember allOf hint) hint
        else if !oneOf.isEmpty then
          c.unionType s (resolveOnly c enter Schema.isNullOnly oneOf hint)
            (resolveMembers c enter oneOf) hint
        else if !anyOf.isEmpty then
          c.unionType s (resolveOnly c enter Schema.isNullOnly anyOf hint)
            (resolveMembers c enter anyOf) hint
        else if !prefixItems.isEmpty then do
          let items' ← resolveItems c enter 1 prefixItems hint
          let rest ← restType items item hint
          pure { type := .tuple items' rest }
        else if s.isEnumerable then
          c.synthesizeOr hint s .enumeration (c.plainType s item value hint)
        else c.plainType s item value hint
    pure ((t.orNull (TypeFlags.ofSchema s).includesNull).annotated s)
termination_by structural s => s

def resolveOrAny (c : Catalog) (enter : Component → m ResolvedType) :
    Option (OrBool Schema) → Option String → m ResolvedType
  | some (.schema s), hint => resolveWith c enter s hint
  | _, _ => pure .any
termination_by structural items => items

def resolveOnly (c : Catalog) (enter : Component → m ResolvedType)
    (passesOver : Schema → Bool) : List Schema → Option String → m ResolvedType
  | [], _ => pure .any
  | s :: rest, hint =>
    if passesOver s then resolveOnly c enter passesOver rest hint
    else resolveWith c enter s hint
termination_by structural members => members

def resolveMembers (c : Catalog) (enter : Component → m ResolvedType) :
    List Schema → m (List ResolvedType)
  | [] => pure []
  | s :: rest =>
    if s.isNullOnly then resolveMembers c enter rest
    else do
      let t ← resolveWith c enter s none
      let ts ← resolveMembers c enter rest
      pure (t :: ts)
termination_by structural members => members

def resolveItems (c : Catalog) (enter : Component → m ResolvedType) (n : Nat) :
    List Schema → Option String → m (List ResolvedType)
  | [], _ => pure []
  | s :: rest, hint => do
    let t ← resolveWith c enter s (hint.map fun name => Naming.numbered (name ++ "Item") n)
    let ts ← resolveItems c enter (n + 1) rest hint
    pure (t :: ts)
termination_by structural items => items

end

end Effects

-- As for records, an alias that is entered again is a cycle, and the depth is never used up.
def enterAlias (c : Catalog) : Nat → List String → Component → Resolution ResolvedType
  | 0, _, entered => throw (.circularReference (.alias entered.name))
  | depth + 1, trail, entered =>
    if trail.contains entered.name then throw (.circularReference (.alias entered.name))
    else
      resolveWith c (enterAlias c depth (entered.name :: trail)) entered.schema
        (some entered.typeName)

-- The type of a schema position. The hint names inline types that are found there.
def resolve (c : Catalog) (s : Schema) (hint : Option String) : Resolution ResolvedType :=
  resolveWith c (c.enterAlias c.components.length []) s hint

def resolveRest (c : Catalog) (s : Schema) (hint : Option String) :
    Resolution (Option ResolvedType) :=
  restType s.items (resolveOrAny c (c.enterAlias c.components.length []) s.items) hint

end Catalog

end OpenApi
