import OpenApi.Type.Flags

set_option autoImplicit false

namespace OpenApi

inductive ComponentKind where
  | record
  | enumeration
  | tuple
  | union
  | hierarchy
  | alias
deriving DecidableEq, Repr

namespace ComponentKind

def isNamed (k : ComponentKind) : Bool := k != .alias

def isRecordLike (k : ComponentKind) : Bool := k == .record || k == .hierarchy

end ComponentKind

namespace Schema

def unionKind (s : Schema) : ComponentKind :=
  let count := (s.unionMembers.filter fun m => !m.isNullOnly).length
  if 2 ≤ count ∨ (s.discriminator.isSome ∧ 1 ≤ count) then .union else .alias

def compositionKind (s : Schema) : ComponentKind :=
  let count := (s.allOf.filter fun m => !m.isNullMember).length
  if count = 1 ∧ s.properties.isEmpty ∧ s.discriminator.isNone then .alias
  else if s.discriminator.isSome then .hierarchy
  else .record

-- The kind that literals give: an enumeration of texts or integers, an alias of other single
-- types, and nothing where there is no literal but null or no single type.
def literalKind? (s : Schema) : Option ComponentKind :=
  match s.enumValues with
  | none => none
  | some values =>
    if values.all Value.isNull then none
    else
      match (TypeFlags.ofSchema s).single? with
      | some .string => some .enumeration
      | some .integer => some .enumeration
      | some _ => some .alias
      | none => none

def objectKind (s : Schema) : ComponentKind :=
  if s.discriminator.isSome then .hierarchy
  else if (TypeFlags.ofSchema s).single? = some .object ∧ !s.properties.isEmpty then .record
  else .alias

def kind (s : Schema) : ComponentKind :=
  if s.reference.isSome then .alias
  else if !s.prefixItems.isEmpty then .tuple
  else if !s.unionMembers.isEmpty then s.unionKind
  else if !s.allOf.isEmpty then s.compositionKind
  else s.literalKind?.getD s.objectKind

end Schema

end OpenApi
