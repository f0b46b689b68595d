import OpenApi.Document.Basic
import OpenApi.Proofs.Json.Same

set_option autoImplicit false

namespace OpenApi

def OrBool.schemas {α : Type} : Option (OrBool α) → List α
  | some (.schema s) => [s]
  | _ => []

namespace Schema

def children (s : Schema) : List Schema :=
  s.properties.map (·.2) ++ OrBool.schemas s.additionalProperties ++ OrBool.schemas s.items
    ++ s.prefixItems ++ s.allOf ++ s.oneOf ++ s.anyOf ++ s.not.toList

theorem property_smaller (properties : List (String × Schema)) (property : String × Schema)
    (member : property ∈ properties) : sizeOf property.2 < sizeOf properties := by
  have := List.sizeOf_lt_of_mem member
  have : sizeOf property = 1 + sizeOf property.1 + sizeOf property.2 := by cases property; rfl
  omega

theorem or_bool_smaller (keyword : Option (OrBool Schema)) (child : Schema)
    (member : child ∈ OrBool.schemas keyword) : sizeOf child < sizeOf keyword := by
  match keyword with
  | none => cases member
  | some (.bool _) => cases member
  | some (.schema s) =>
      obtain rfl : child = s := List.mem_singleton.mp member
      simp only [Option.some.sizeOf_spec, OrBool.schema.sizeOf_spec]
      omega

theorem option_smaller (keyword : Option Schema) (child : Schema)
    (member : child ∈ keyword.toList) : sizeOf child < sizeOf keyword := by
  obtain rfl : keyword = some child := Option.mem_toList.mp member
  simp

theorem child_smaller (s child : Schema) (member : child ∈ s.children) :
    sizeOf child < sizeOf s := by
  simp only [children, List.mem_append, List.mem_map] at member
  cases s
  dsimp only at member
  simp only [mk.sizeOf_spec]
  rcases member with
    ((((((⟨property, member, rfl⟩ | member) | member) | member) | member) | member) | member) | member
  · have := property_smaller _ property member
    omega
  · have := or_bool_smaller _ child member
    omega
  · have := or_bool_smaller _ child member
    omega
  · have := List.sizeOf_lt_of_mem member
    omega
  · have := List.sizeOf_lt_of_mem member
    omega
  · have := List.sizeOf_lt_of_mem member
    omega
  · have := List.sizeOf_lt_of_mem member
    omega
  · have := option_smaller _ child member
    omega

@[elab_as_elim]
theorem child_induction {P : Schema → Prop} (step : ∀ s, (∀ child ∈ s.children, P child) → P s)
    (s : Schema) : P s :=
  step s fun child member =>
    have := child_smaller s child member
    child_induction step child
termination_by sizeOf s

variable (s child : Schema)

theorem child_of_property (property : String × Schema) (member : property ∈ s.properties) :
    property.2 ∈ s.children := by
  have := List.mem_map_of_mem (f := (·.2)) member
  simp_all [children]

theorem child_of_additional (member : child ∈ OrBool.schemas s.additionalProperties) :
    child ∈ s.children := by simp [children, member]

theorem child_of_items (member : child ∈ OrBool.schemas s.items) : child ∈ s.children := by
  simp [children, member]

theorem child_of_tuple (member : child ∈ s.prefixItems) : child ∈ s.children := by
  simp [children, member]

theorem child_of_all (member : child ∈ s.allOf) : child ∈ s.children := by simp [children, member]

theorem child_of_one (member : child ∈ s.oneOf) : child ∈ s.children := by simp [children, member]

theorem child_of_any (member : child ∈ s.anyOf) : child ∈ s.children := by simp [children, member]

theorem child_of_not (member : child ∈ s.not.toList) : child ∈ s.children := by
  simp [children, Option.mem_toList.mp member]

def valuesKeyed (s : Schema) : Bool :=
  s.default.all Value.isKeyed
    && (s.enumValues.getD []).all Value.isKeyed
    && s.constValue.all Value.isKeyed
    && (Value.obj s.extra).isKeyed
    && s.discriminator.all fun d => decide (Assoc.keys d.mapping).Nodup

mutual

def isKeyed : Schema → Bool
  | s@{ properties, additionalProperties, items, prefixItems, allOf, oneOf, anyOf, not, .. } =>
    s.valuesKeyed
      && decide (Assoc.keys properties).Nodup
      && propertiesKeyed properties
      && orBoolKeyed additionalProperties
      && orBoolKeyed items
      && listKeyed prefixItems
      && listKeyed allOf
      && listKeyed oneOf
      && listKeyed anyOf
      && negatedKeyed not
termination_by structural s => s

def propertiesKeyed : List (String × Schema) → Bool
  | [] => true
  | (_, s) :: rest => s.isKeyed && propertiesKeyed rest
termination_by structural properties => properties

def orBoolKeyed : Option (OrBool Schema) → Bool
  | some (.schema s) => s.isKeyed
  | _ => true
termination_by structural keyword => keyword

def listKeyed : List Schema → Bool
  | [] => true
  | s :: rest => s.isKeyed && listKeyed rest
termination_by structural schemas => schemas

def negatedKeyed : Option Schema → Bool
  | some s => s.isKeyed
  | none => true
termination_by structural keyword => keyword

end

theorem properties_keyed_iff (properties : List (String × Schema)) :
    propertiesKeyed properties = true ↔ ∀ s ∈ properties.map (·.2), s.isKeyed = true := by
  induction properties with
  | nil => simp [propertiesKeyed]
  | cons property rest ih =>
      rcases property with ⟨name, s⟩
      rw [propertiesKeyed, Bool.and_eq_true, ih, List.map_cons, List.forall_mem_cons]

theorem or_bool_keyed_iff (keyword : Option (OrBool Schema)) :
    orBoolKeyed keyword = true ↔ ∀ s ∈ OrBool.schemas keyword, s.isKeyed = true := by
  match keyword with
  | none => simp [orBoolKeyed, OrBool.schemas]
  | some (.bool _) => simp [orBoolKeyed, OrBool.schemas]
  | some (.schema s) => simp [orBoolKeyed, OrBool.schemas]

theorem list_keyed_iff (schemas : List Schema) :
    listKeyed schemas = true ↔ ∀ s ∈ schemas, s.isKeyed = true := by
  induction schemas with
  | nil => simp [listKeyed]
  | cons s rest ih => rw [listKeyed, Bool.and_eq_true, ih, List.forall_mem_cons]

theorem negated_keyed_iff (keyword : Option Schema) :
    negatedKeyed keyword = true ↔ ∀ s ∈ keyword.toList, s.isKeyed = true := by
  cases keyword <;> simp [negatedKeyed]

theorem keyed_iff : s.isKeyed = true ↔
    s.valuesKeyed = true ∧ (Assoc.keys s.properties).Nodup
      ∧ ∀ child ∈ s.children, child.isKeyed = true := by
  cases s
  simp only [isKeyed, Bool.and_eq_true, decide_eq_true_iff, properties_keyed_iff,
    or_bool_keyed_iff, list_keyed_iff, negated_keyed_iff, children, List.forall_mem_append,
    and_assoc]

theorem keyed_child (keyed : s.isKeyed = true) (member : child ∈ s.children) :
    child.isKeyed = true := ((keyed_iff s).mp keyed).2.2 child member

end Schema

namespace Document

def schemas (d : Document) : List (String × Schema) := d.contents.components.schemas

def isKeyed (d : Document) : Bool :=
  decide (Assoc.keys d.schemas).Nodup && d.schemas.all fun (_, s) => s.isKeyed

theorem keyed_iff (d : Document) : d.isKeyed = true ↔
    (Assoc.keys d.schemas).Nodup ∧ ∀ entry ∈ d.schemas, entry.2.isKeyed = true := by
  simp [isKeyed]

end Document

end OpenApi
