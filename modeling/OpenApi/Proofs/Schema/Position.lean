import OpenApi.Proofs.Schema.Keyed

set_option autoImplicit false

namespace OpenApi.Schema

def positions (s : Schema) : List Schema :=
  s.properties.map (·.2) ++ OrBool.schemas s.additionalProperties ++ OrBool.schemas s.items
    ++ s.prefixItems ++ s.oneOf ++ s.anyOf

-- The positions of a schema and the members of its `allOf` but for null.
def parts (s : Schema) : List Schema := s.positions ++ s.allOf.filter (!·.isNullMember)

mutual

def insides : Schema → List Schema
  | { properties, additionalProperties, items, prefixItems, allOf, oneOf, anyOf, .. } =>
    propertyInsides properties ++ keywordInsides additionalProperties ++ keywordInsides items
      ++ listInsides prefixItems ++ listInsides oneOf ++ listInsides anyOf ++ memberInsides allOf
termination_by structural s => s

def propertyInsides : List (String × Schema) → List Schema
  | [] => []
  | (_, s) :: rest => s :: (s.insides ++ propertyInsides rest)
termination_by structural properties => properties

def keywordInsides : Option (OrBool Schema) → List Schema
  | some (.schema s) => s :: s.insides
  | _ => []
termination_by structural keyword => keyword

def listInsides : List Schema → List Schema
  | [] => []
  | s :: rest => s :: (s.insides ++ listInsides rest)
termination_by structural schemas => schemas

def memberInsides : List Schema → List Schema
  | [] => []
  | s :: rest => s.insides ++ memberInsides rest
termination_by structural schemas => schemas

end

theorem mem_property_insides (properties : List (String × Schema)) (p : Schema) :
    p ∈ propertyInsides properties ↔ ∃ s ∈ properties.map (·.2), p = s ∨ p ∈ s.insides := by
  induction properties with
  | nil => simp [propertyInsides]
  | cons property rest ih =>
      rcases property with ⟨name, s⟩
      rw [propertyInsides, List.map_cons, List.exists_mem_cons_iff, ← ih]
      simp [or_assoc]

theorem mem_keyword_insides (keyword : Option (OrBool Schema)) (p : Schema) :
    p ∈ keywordInsides keyword ↔ ∃ s ∈ OrBool.schemas keyword, p = s ∨ p ∈ s.insides := by
  match keyword with
  | none => simp [keywordInsides, OrBool.schemas]
  | some (.bool _) => simp [keywordInsides, OrBool.schemas]
  | some (.schema s) => simp [keywordInsides, OrBool.schemas]

theorem mem_list_insides (schemas : List Schema) (p : Schema) :
    p ∈ listInsides schemas ↔ ∃ s ∈ schemas, p = s ∨ p ∈ s.insides := by
  induction schemas with
  | nil => simp [listInsides]
  | cons s rest ih =>
      rw [listInsides, List.exists_mem_cons_iff, ← ih]
      simp [or_assoc]

theorem mem_member_insides (schemas : List Schema) (p : Schema) :
    p ∈ memberInsides schemas ↔ ∃ s ∈ schemas, p ∈ s.insides := by
  induction schemas with
  | nil => simp [memberInsides]
  | cons s rest ih =>
      rw [memberInsides, List.exists_mem_cons_iff, ← ih, List.mem_append]

variable (s p : Schema)

theorem mem_insides : p ∈ s.insides ↔
    (∃ q ∈ s.positions, p = q ∨ p ∈ q.insides) ∨ ∃ m ∈ s.allOf, p ∈ m.insides := by
  cases s
  simp only [insides, positions, List.mem_append, mem_property_insides, mem_keyword_insides,
    mem_list_insides, mem_member_insides, or_and_right, exists_or]

theorem position_child (member : p ∈ s.positions) : p ∈ s.children := by
  simp only [positions, children, List.mem_append] at member ⊢
  tauto

theorem part_cases (member : p ∈ s.parts) :
    p ∈ s.positions ∨ p ∈ s.allOf ∧ p.isNullMember = false := by
  simpa [parts] using member

theorem part_child (member : p ∈ s.parts) : p ∈ s.children := by
  rcases part_cases s p member with position | ⟨inAll, _⟩
  · exact s.position_child p position
  · exact s.child_of_all p inAll

theorem position_part (member : p ∈ s.positions) : p ∈ s.parts := List.mem_append_left _ member

theorem member_part (member : p ∈ s.allOf) (present : p.isNullMember = false) : p ∈ s.parts :=
  List.mem_append_right _ (List.mem_filter.mpr ⟨member, by simp [present]⟩)

theorem property_position (property : String × Schema) (member : property ∈ s.properties) :
    property.2 ∈ s.positions := by
  have inMap := List.mem_map_of_mem (f := (·.2)) member
  simp only [positions, List.mem_append]
  tauto

theorem additional_position (member : p ∈ OrBool.schemas s.additionalProperties) :
    p ∈ s.positions := by simp [positions, member]

theorem items_position (member : p ∈ OrBool.schemas s.items) : p ∈ s.positions := by
  simp [positions, member]

theorem element_position (member : p ∈ s.prefixItems) : p ∈ s.positions := by
  simp [positions, member]

theorem union_position (member : p ∈ s.unionMembers) : p ∈ s.positions := by
  rw [unionMembers] at member
  split at member <;> simp [positions, member]

end OpenApi.Schema
