import OpenApi.Model.Enumeration
import OpenApi.Proofs.Component.Origin
import OpenApi.Proofs.Document.Positions
import OpenApi.Proofs.Naming.Template

set_option autoImplicit false

namespace OpenApi

open Naming Text

namespace Schema

def ownNames (s : Schema) : List String :=
  s.properties.map (·.1) ++ (s.enumValues.getD []).filterMap Value.asString?
    ++ EnumModel.nameExtensions.flatMap fun key =>
      (((s.extension? key).bind Value.asArray?).getD []).filterMap Value.asString?

inductive AsciiNames : Schema → Prop
  | intro (s : Schema) (own : ∀ name ∈ s.ownNames, Ascii name.toList)
      (below : ∀ child ∈ s.children, AsciiNames child) : AsciiNames s

theorem ascii_leaf (s : Schema) (own : ∀ name ∈ s.ownNames, Ascii name.toList)
    (leaf : s.children = []) : s.AsciiNames := .intro s own (by simp [leaf])

section Ascii

variable (s : Schema) (ascii : s.AsciiNames)

include ascii

theorem ascii_own : ∀ name ∈ s.ownNames, Ascii name.toList := by
  cases ascii with
  | intro _ own _ => exact own

theorem ascii_child : ∀ child ∈ s.children, child.AsciiNames := by
  cases ascii with
  | intro _ _ below => exact below

theorem ascii_part : ∀ p ∈ s.parts, p.AsciiNames := fun p member =>
  s.ascii_child ascii p (s.part_child p member)

theorem ascii_position : ∀ p ∈ s.positions, p.AsciiNames := fun p member =>
  s.ascii_child ascii p (s.position_child p member)

theorem ascii_inside : ∀ p ∈ s.insides, p.AsciiNames := by
  induction s using child_induction with
  | step s ih =>
      intro p inside
      obtain ⟨child, isChild, within⟩ := s.inside_child p inside
      have asciiChild := s.ascii_child ascii child isChild
      rcases within with rfl | below
      · exact asciiChild
      · exact ih child isChild asciiChild p below

end Ascii

end Schema

namespace Document

variable (d : Document)

structure AsciiNames : Prop where
  components : ∀ entry ∈ d.contents.components.schemas,
    Ascii entry.1.toList ∧ entry.2.AsciiNames
  parts : ∀ s ∈ d.partSchemas, s.AsciiNames
  operations : ∀ entry ∈ d.operations, Ascii entry.path.toList
    ∧ ∀ id ∈ entry.operation.operationId, Ascii id.toList
  parameters : ∀ entry ∈ d.operations,
    ∀ item ∈ entry.pathItem.parameters ++ entry.operation.parameters,
      ∀ p, d.parameter item = .ok p → Ascii p.name.toList
  headers : ∀ entry ∈ d.operations, ∀ response ∈ entry.operation.responses,
    ∀ r, d.response response.2 = .ok r → ∀ header ∈ r.headers, Ascii header.1.toList

def starts : List String :=
  d.contents.components.schemas.map (Component.baseName ·.1) ++ d.operations.map (·.name)

def Roots (name : String) : Prop := ∃ start ∈ d.starts, name.toList.head? = start.toList.head?

def TypeNamed (name : String) : Prop := IsWord name ∧ d.Roots name

def Rooted (name : String) : Prop := Ascii name.toList ∧ d.Roots name

theorem type_named_rooted (name : String) (named : d.TypeNamed name) : d.Rooted name :=
  ⟨plain_ascii _ named.1.2, named.2⟩

theorem type_named_unique (base : String) (taken : List String) (named : d.TypeNamed base) :
    d.TypeNamed (unique base taken) := by
  obtain ⟨word, start, isStart, sameHead⟩ := named
  exact ⟨unique_word base taken word, start, isStart,
    (unique_head base taken word.1).trans sameHead⟩

end Document

theorem Component.base_name_valid (name : String) (ascii : Ascii name.toList) :
    IsTypeName (Component.baseName name) := by
  unfold Component.baseName
  dsimp only
  split
  · refine ⟨by decide, fun c isHead => ?_⟩
    obtain rfl : 'S' = c := Option.some.inj isHead
    rfl
  · rename_i some
    exact type_name_valid name ascii (by simpa [String.isEmpty_iff] using some)

theorem Component.classify_typed (schemas : List (String × Schema)) (taken : List String)
    (entries : List (String × Schema)) (d : Component) (member : d ∈ classify schemas taken entries) :
    d.typeName = baseName d.name ∨ ∃ taken, d.typeName = unique (baseName d.name) taken := by
  induction entries generalizing taken with
  | nil => cases member
  | cons entry rest ih =>
      rw [classify] at member
      dsimp only at member
      split at member
      · rcases List.mem_cons.mp member with rfl | later
        · exact .inr ⟨taken, rfl⟩
        · exact ih _ later
      · rcases List.mem_cons.mp member with rfl | later
        · exact .inl rfl
        · exact ih _ later

namespace Document

variable (d : Document) (ascii : d.AsciiNames)

include ascii

theorem starts_valid : ∀ start ∈ d.starts, IsTypeName start := by
  intro start member
  rcases List.mem_append.mp member with component | operation
  · obtain ⟨entry, isEntry, rfl⟩ := List.mem_map.mp component
    exact Component.base_name_valid entry.1 (ascii.components entry isEntry).1
  · obtain ⟨entry, isEntry, rfl⟩ := List.mem_map.mp operation
    obtain ⟨asciiPath, asciiId⟩ := ascii.operations entry isEntry
    exact entry.name_valid d isEntry asciiPath asciiId

theorem rooted_some (name : String) (rooted : d.Roots name) : name ≠ "" := by
  obtain ⟨start, isStart, sameHead⟩ := rooted
  rintro rfl
  have empty : start = "" := String.toList_eq_nil_iff.mp (List.head?_eq_none_iff.mp sameHead.symm)
  exact (d.starts_valid ascii start isStart).1.1 empty

theorem rooted_append (name more : String) (rooted : d.Rooted name) (asciiMore : Ascii more.toList) :
    d.Rooted (name ++ more) := by
  obtain ⟨asciiName, start, isStart, sameHead⟩ := rooted
  have some := d.rooted_some ascii name ⟨start, isStart, sameHead⟩
  refine ⟨?_, start, isStart, (append_head name more some).trans sameHead⟩
  rw [String.toList_append]
  exact (ascii_append _ _).mpr ⟨asciiName, asciiMore⟩

theorem rooted_type_name (name : String) (rooted : d.Rooted name) : d.TypeNamed (typeName name) := by
  obtain ⟨asciiName, start, isStart, sameHead⟩ := rooted
  obtain ⟨⟨_, plain⟩, capital⟩ := d.starts_valid ascii start isStart
  have some := d.rooted_some ascii name ⟨start, isStart, sameHead⟩
  have head : (typeName name).toList.head? = start.toList.head? := by
    rw [type_name_head name asciiName]
    cases isName : name.toList with
    | nil => exact absurd (String.toList_eq_nil_iff.mp isName) some
    | cons c rest =>
        rw [isName, List.head?_cons] at sameHead
        have isHead := sameHead.symm
        have letter := alphanumeric_plain c (plain c (List.mem_of_head? isHead))
        rw [List.filter_cons_of_pos letter, List.head?_cons, Option.map_some, isHead,
          capital c isHead]
  have roots : d.Roots (typeName name) := ⟨start, isStart, head⟩
  exact ⟨⟨d.rooted_some ascii _ roots, type_name_plain name asciiName⟩, roots⟩

section Components

variable (config : Config) (component : Component)
  (member : component ∈ (Catalog.ofDocument d config).components)

include member

theorem base_named : component.schema.AsciiNames
    ∧ d.TypeNamed (Component.baseName component.name) := by
  have declared := (Component.classify_mem _ _ _ component member).1
  have isStart : Component.baseName component.name ∈ d.starts :=
    List.mem_append_left _ (List.mem_map.mpr ⟨_, declared, rfl⟩)
  exact ⟨(ascii.components _ declared).2, (d.starts_valid ascii _ isStart).1, _, isStart, rfl⟩

theorem component_named : component.schema.AsciiNames ∧ d.TypeNamed component.typeName := by
  obtain ⟨asciiSchema, base⟩ := d.base_named ascii config component member
  refine ⟨asciiSchema, ?_⟩
  rcases Component.classify_typed _ _ _ component member with kept | ⟨taken, numbered⟩
  · rw [kept]
    exact base
  · rw [numbered]
    exact d.type_named_unique _ taken base

theorem component_identifier : IsIdentifier component.typeName
    ↔ startsWithDigit (Component.baseName component.name) = false := by
  have isName := name_of_word _ (d.base_named ascii config component member).2.1
  rcases Component.classify_typed _ _ _ component member with kept | ⟨taken, numbered⟩
  · rw [kept]
    exact and_iff_right isName
  · rw [numbered]
    exact unique_identifier_iff _ taken isName

end Components

end Document

end OpenApi
