import OpenApi.Proofs.Component.Catalog
import OpenApi.Proofs.Type.Resolution

set_option autoImplicit false

namespace OpenApi

mutual

def TypeRef.names : TypeRef → List String
  | .named name => [name]
  | .array item _ => item.names
  | .map value => value.names
  | .tuple items rest => ResolvedType.listNames items ++ ResolvedType.optionNames rest
  | .union members => ResolvedType.listNames members
  | _ => []
termination_by structural t => t

def ResolvedType.names : ResolvedType → List String
  | { type, .. } => type.names
termination_by structural t => t

def ResolvedType.listNames : List ResolvedType → List String
  | [] => []
  | t :: rest => t.names ++ ResolvedType.listNames rest
termination_by structural types => types

def ResolvedType.optionNames : Option ResolvedType → List String
  | none => []
  | some t => t.names
termination_by structural type => type

end

theorem TypeRef.names_of_name (type : TypeRef) (name : String) (isNamed : type.name? = some name) :
    type.names = [name] := by
  cases type with
  | named other =>
      obtain rfl := Option.some.inj isNamed
      rfl
  | primitive | array | map | tuple | union | any => cases isNamed

namespace ResolvedType

theorem mem_list_names (types : List ResolvedType) (name : String) :
    name ∈ listNames types ↔ ∃ t ∈ types, name ∈ t.names := by
  induction types with
  | nil => simp [listNames]
  | cons t rest ih => simp [listNames, ih]

theorem mem_option_names (type : Option ResolvedType) (name : String) :
    name ∈ optionNames type ↔ ∃ t ∈ type, name ∈ t.names := by
  cases type <;> simp [optionNames]

theorem names_of_type (t : ResolvedType) : t.names = t.type.names := by cases t; rfl

theorem names_or_null (t : ResolvedType) (nullable : Bool) : (t.orNull nullable).names = t.names := by
  rw [names_of_type, names_of_type, orNull]

theorem type_smaller (t : ResolvedType) : sizeOf t.type < sizeOf t := by
  cases t
  simp only [mk.sizeOf_spec]
  omega

end ResolvedType

section Parts

def TypeRef.parts : TypeRef → List ResolvedType
  | .array item _ => [item]
  | .map value => [value]
  | .tuple items rest => items ++ rest.toList
  | .union members => members
  | _ => []

namespace TypeRef

variable (type : TypeRef) (part : ResolvedType) (member : part ∈ type.parts)

include member

theorem part_smaller : sizeOf part < sizeOf type := by
  cases type with
  | array item unique =>
      obtain rfl := List.mem_singleton.mp member
      simp only [array.sizeOf_spec]
      omega
  | map value =>
      obtain rfl := List.mem_singleton.mp member
      simp only [map.sizeOf_spec]
      omega
  | tuple items rest =>
      rcases List.mem_append.mp member with inItems | isRest
      · have := List.sizeOf_lt_of_mem inItems
        simp only [tuple.sizeOf_spec]
        omega
      · obtain rfl := Option.mem_toList.mp isRest
        simp only [tuple.sizeOf_spec, Option.some.sizeOf_spec]
        omega
  | union members =>
      have : sizeOf part < sizeOf members := List.sizeOf_lt_of_mem member
      simp only [union.sizeOf_spec]
      omega
  | primitive | named | any => cases member

theorem part_names (name : String) (inPart : name ∈ part.names) : name ∈ type.names := by
  cases type with
  | array item unique | map item =>
      obtain rfl := List.mem_singleton.mp member
      exact inPart
  | tuple items rest =>
      rcases List.mem_append.mp member with inItems | isRest
      · refine List.mem_append_left _ ((ResolvedType.mem_list_names items name).mpr ?_)
        exact ⟨part, inItems, inPart⟩
      · refine List.mem_append_right _ ((ResolvedType.mem_option_names rest name).mpr ?_)
        exact ⟨part, Option.mem_toList.mp isRest, inPart⟩
  | union members =>
      exact (ResolvedType.mem_list_names members name).mpr ⟨part, member, inPart⟩
  | primitive | named | any => cases member

end TypeRef

end Parts

namespace Catalog

def Covers (c : Catalog) (r : Registry) (names : List String) : Prop :=
  ∀ name ∈ names, name ∈ c.typeNames ∨ name ∈ r.names

def Knows (c : Catalog) (r : Registry) (t : ResolvedType) : Prop := c.Covers r t.names

variable (c : Catalog)

theorem covers_lasting (names : List String) : Resolution.Lasting (c.Covers · names) := by
  intro r r' grown covered name member
  rcases covered name member with component | registered
  · exact .inl component
  · exact .inr ((r.extends_names r' grown).subset registered)

theorem knows_lasting (t : ResolvedType) : Resolution.Lasting (c.Knows · t) :=
  covers_lasting c t.names

theorem knows_same_names (r : Registry) (t t' : ResolvedType) (same : t'.names = t.names)
    (known : c.Knows r t) : c.Knows r t' := by
  rwa [Knows, same]

theorem knows_nothing (r : Registry) (t : ResolvedType) (empty : t.names = []) : c.Knows r t := by
  rw [Knows, empty]
  exact fun name member => by cases member

theorem knows_registered (r : Registry) (name : String) (registered : name ∈ r.names) :
    c.Knows r (.named name) := by
  intro other member
  obtain rfl : other = name := List.mem_singleton.mp member
  exact .inr registered

theorem knows_component (r : Registry) (found : Component) (member : found ∈ c.components)
    (named : found.kind.isNamed = true) : c.Knows r found.type := by
  intro name inType
  obtain rfl : name = found.typeName := List.mem_singleton.mp inType
  exact .inl (mem_type_names c found member named)

theorem covers_list (r : Registry) (types : List ResolvedType) (known : ∀ t ∈ types, c.Knows r t) :
    c.Covers r (ResolvedType.listNames types) := by
  intro name member
  obtain ⟨t, inTypes, inType⟩ := (ResolvedType.mem_list_names types name).mp member
  exact known t inTypes name inType

theorem covers_option (r : Registry) (type : Option ResolvedType) (known : ∀ t ∈ type, c.Knows r t) :
    c.Covers r (ResolvedType.optionNames type) := by
  intro name member
  obtain ⟨t, inOption, inType⟩ := (ResolvedType.mem_option_names type name).mp member
  exact known t inOption name inType

theorem knows_union (r : Registry) (members : List ResolvedType)
    (known : ∀ t ∈ members, c.Knows r t) : c.Knows r { type := .union members } :=
  covers_list c r members known

theorem knows_tuple (r : Registry) (items : List ResolvedType) (rest : Option ResolvedType)
    (itemsKnown : ∀ t ∈ items, c.Knows r t) (restKnown : ∀ t ∈ rest, c.Knows r t) :
    c.Knows r { type := .tuple items rest } := by
  intro name member
  rcases List.mem_append.mp member with inItems | inRest
  · exact covers_list c r items itemsKnown name inItems
  · exact covers_option c r rest restKnown name inRest

end Catalog

end OpenApi
