import OpenApi.Component.Catalog

set_option autoImplicit false

namespace OpenApi

structure FlatRecord where
  base : Option String := none
  properties : List (String × Schema) := []
  required : List String := []
  additionalProperties : Option (OrBool Schema) := none

namespace FlatRecord

def own (s : Schema) : FlatRecord where
  properties := s.properties
  required := s.required
  additionalProperties := s.additionalProperties

def addNames (names : List String) : List String → List String
  | [] => names
  | name :: rest => addNames (if names.contains name then names else names ++ [name]) rest

def overlay (flat other : FlatRecord) : FlatRecord where
  base := flat.base
  properties := other.properties.foldl (fun acc (name, s) => Assoc.put acc name s) flat.properties
  required := addNames flat.required other.required
  additionalProperties := other.additionalProperties <|> flat.additionalProperties

end FlatRecord

namespace Catalog

mutual

-- A schema flattened; `mixin` gives all properties of a component that is no base. Members of
-- inline members are no bases.
def flattenWith (c : Catalog) (mixin : Component → Except Error FlatRecord) (mayInherit : Bool) :
    Schema → Except Error FlatRecord
  | s@{ allOf, .. } => do
    let flat ← flattenMembers c mixin mayInherit {} allOf
    .ok (flat.overlay (.own s))
termination_by structural s => s

def flattenMembers (c : Catalog) (mixin : Component → Except Error FlatRecord)
    (mayInherit : Bool) : FlatRecord → List Schema → Except Error FlatRecord
  | flat, [] => .ok flat
  | flat, m :: rest =>
    if m.isNullMember then flattenMembers c mixin mayInherit flat rest
    else
      match m.reference with
      | none => do
        let inline ← flattenWith c mixin false m
        flattenMembers c mixin mayInherit (flat.overlay inline) rest
      | some reference => do
        let found ← c.target reference
        if mayInherit && flat.base.isNone && found.kind.isRecordLike then
          flattenMembers c mixin mayInherit { flat with base := some found.name } rest
        else do
          let all ← mixin found
          flattenMembers c mixin mayInherit (flat.overlay all) rest
termination_by structural _ members => members

end

-- A component that is entered again is a cycle, so a trail has no more names than there are
-- components, and with these as the depth the case zero is never reached.
def enterRecord (c : Catalog) : Nat → List String → (String → Cycle) → Component →
    Except Error FlatRecord
  | 0, _, cycle, entered => .error (.circularReference (cycle entered.name))
  | depth + 1, trail, cycle, entered =>
    if trail.contains entered.name then .error (.circularReference (cycle entered.name))
    else do
      let enter := enterRecord c depth (entered.name :: trail)
      let flat ← c.flattenWith (enter .composition) true entered.schema
      match flat.base with
      | none => .ok flat
      | some base => do
        let inherited ← enter .inheritance (← c.component base)
        .ok (inherited.overlay flat)

def allProperties (c : Catalog) (name : String) : Except Error FlatRecord := do
  c.enterRecord c.components.length [] .composition (← c.component name)

def flattenOwn (c : Catalog) (name : Option String) (s : Schema) : Except Error FlatRecord :=
  c.flattenWith (c.enterRecord c.components.length name.toList .composition) true s

def baseOf (c : Catalog) (name : String) : Except Error (Option String) := do
  let found ← c.component name
  let flat ← c.flattenOwn (some name) found.schema
  .ok flat.base

-- What a search along the bases of a component finds first, from a component that is not among
-- those seen before, if at most `depth` more can be entered.
def searchBases {α : Type} (c : Catalog) (found? : String → Option α) :
    Nat → List String → String → Except Error (Option α)
  | 0, _, name => .error (.circularReference (.baseChain name))
  | depth + 1, seen, name =>
    if seen.contains name then .error (.circularReference (.baseChain name))
    else
      match found? name with
      | some found => .ok (some found)
      | none => do
        match ← c.baseOf name with
        | none => .ok none
        | some base => searchBases c found? depth (name :: seen) base

def checkBases (c : Catalog) (name : String) : Except Error Unit := do
  let _ ← c.searchBases (fun _ => (none : Option Unit)) c.components.length [] name
  .ok ()

def flatten (c : Catalog) (name : Option String) (s : Schema) : Except Error FlatRecord := do
  let flat ← c.flattenOwn name s
  match name, flat.base with
  | some name, some _ => do
    c.checkBases name
    .ok flat
  | _, _ => .ok flat

end Catalog

end OpenApi
