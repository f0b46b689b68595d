import OpenApi.Http.Path
import OpenApi.Proofs.Naming.Template

set_option autoImplicit false

namespace OpenApi

namespace Naming

namespace TemplatePart

def text : TemplatePart → List Char
  | .literal text => text
  | .placeholder name => '\x7b' :: name ++ ['\x7d']

def isLiteral : TemplatePart → Bool
  | .literal _ => true
  | .placeholder _ => false

end TemplatePart

theorem StartsWith.text_eq (text name after : List Char) (starts : StartsWith text name after) :
    (TemplatePart.placeholder name).text ++ after = text := by
  rw [starts.whole, TemplatePart.text, List.append_assoc, List.singleton_append]

section Parts

variable (literal text : List Char)

theorem literal_text : (literalParts literal).flatMap TemplatePart.text = literal.reverse := by
  rw [literalParts]
  split <;> simp_all [TemplatePart.text]

theorem template_text :
    (templateParts literal text).flatMap TemplatePart.text = literal.reverse ++ text := by
  fun_induction templateParts literal text with
  | case1 literal => rw [literal_text, List.append_nil]
  | case2 literal c rest name after found _ ih =>
      have starts := placeholder_starts _ name after found
      rw [List.flatMap_append, List.flatMap_cons, ih, literal_text, List.reverse_nil, List.nil_append,
        starts.text_eq]
  | case3 literal c rest none ih =>
      rw [ih, List.reverse_cons, List.append_assoc, List.singleton_append]

theorem literal_filled (value : List Char) (member : .literal value ∈ templateParts literal text) :
    value ≠ [] := by
  have filled (literal : List Char) (isPart : .literal value ∈ literalParts literal) :
      value ≠ [] := by
    obtain ⟨some, same⟩ := (mem_literal_parts literal _).mp isPart
    cases same
    exact mt List.reverse_eq_nil_iff.mp some
  fun_induction templateParts literal text with
  | case1 literal => exact filled literal member
  | case2 literal c rest name after found _ ih =>
      rcases List.mem_append.mp member with isPart | later
      · exact filled literal isPart
      · exact ih ((List.mem_cons.mp later).resolve_left (by rintro ⟨⟩))
  | case3 literal c rest none ih => exact ih member

theorem literals_apart : (templateParts literal text).IsChain
    fun part next => ¬ (part.isLiteral = true ∧ next.isLiteral = true) := by
  have alone (literal : List Char) : (literalParts literal).IsChain
      fun part next => ¬ (part.isLiteral = true ∧ next.isLiteral = true) := by
    rw [literalParts]
    split <;> simp
  fun_induction templateParts literal text with
  | case1 literal => exact alone literal
  | case2 literal c rest name after found _ ih =>
      refine List.isChain_append.mpr ⟨alone literal, ?_, ?_⟩
      · exact List.isChain_cons.mpr ⟨fun next _ both => Bool.noConfusion both.1, ih⟩
      · rintro part - next ⟨⟩ ⟨-, isLiteral⟩
        cases isLiteral
  | case3 literal c rest none ih => exact ih

theorem literal_suffix (value : List Char) (after rest : List TemplatePart)
    (suffix : .literal value :: after <:+ literalParts literal ++ rest) :
    value = literal.reverse ∧ after = rest ∨ .literal value :: after <:+ rest := by
  rw [literalParts] at suffix
  split at suffix
  · exact .inr suffix
  · rcases List.suffix_cons_iff.mp suffix with same | later
    · cases same
      exact .inl ⟨rfl, rfl⟩
    · exact .inr later

theorem literals_leftmost
    (unread : ∀ s ≠ [], s <:+ literal.reverse → placeholder? (s ++ text) = none)
    (value : List Char) (after : List TemplatePart)
    (suffix : .literal value :: after <:+ templateParts literal text) :
    ∀ s ≠ [], s <:+ value → placeholder? (s ++ after.flatMap TemplatePart.text) = none := by
  fun_induction templateParts literal text with
  | case1 literal =>
      rw [← List.append_nil (literalParts literal)] at suffix
      obtain ⟨rfl, rfl⟩ | absent := literal_suffix literal value after [] suffix
      · exact unread
      · cases List.suffix_nil.mp absent
  | case2 literal c rest name text found _ ih =>
      obtain ⟨rfl, rfl⟩ | later := literal_suffix literal value after _ suffix
      · have starts := placeholder_starts _ name text found
        rwa [List.flatMap_cons, template_text, List.reverse_nil, List.nil_append, starts.text_eq]
      · obtain isPlaceholder | later := List.suffix_cons_iff.mp later
        · cases isPlaceholder
        · refine ih (fun s some within => ?_) later
          exact absurd (List.suffix_nil.mp within) some
  | case3 literal c rest none ih =>
      refine ih (fun s some within => ?_) suffix
      rw [List.reverse_cons] at within
      obtain rfl | ⟨t, rfl, before⟩ := List.suffix_concat_iff.mp within
      · exact absurd rfl some
      · rw [List.append_assoc, List.singleton_append]
        cases t with
        | nil => exact none
        | cons d t => exact unread _ (List.cons_ne_nil d t) before

end Parts

end Naming

namespace PathSegment

open Naming

def text : PathSegment → String
  | .literal value => value
  | .parameter _ wireName => "\x7b" ++ wireName ++ "\x7d"

def isLiteral : PathSegment → Bool
  | .literal _ => true
  | .parameter _ _ => false

def wireName? : PathSegment → Option String
  | .literal _ => none
  | .parameter _ wireName => some wireName

structure Segments (path : String) (segments : List PathSegment) : Prop where
  whole : String.join (segments.map text) = path
  filled : .literal "" ∉ segments
  apart : segments.IsChain fun s next => ¬ (s.isLiteral = true ∧ next.isLiteral = true)
  names : segments.filterMap wireName? = placeholders path
  leftmost : ∀ value after, .literal value :: after <:+ segments →
    ∀ s ≠ [], s <:+ value.toList → ∀ name rest,
      ¬ StartsWith (s ++ (String.join (after.map text)).toList) name rest

variable (identifiers : List (String × String))

def ofPart : TemplatePart → PathSegment
  | .literal value => .literal (String.ofList value)
  | .placeholder name => .parameter
      ((identifiers.lookup (String.ofList name)).getD (parameterName (String.ofList name)))
      (String.ofList name)

theorem template_map (path : String) :
    ofTemplate path identifiers = (templateParts [] path.toList).map (ofPart identifiers) := by
  refine List.map_congr_left fun part _ => ?_
  cases part with
  | literal value => rfl
  | placeholder name =>
      cases found : identifiers.lookup (String.ofList name) with
      | none => simp only [ofPart, found, Option.getD_none]
      | some identifier => simp only [ofPart, found, Option.getD_some]

theorem part_text (part : TemplatePart) : (ofPart identifiers part).text.toList = part.text := by
  cases part <;> simp [ofPart, text, TemplatePart.text]

theorem parts_text (parts : List TemplatePart) :
    (String.join ((parts.map (ofPart identifiers)).map text)).toList
      = parts.flatMap TemplatePart.text := by
  rw [String.toList_join, List.map_map, List.flatMap_map]
  exact List.flatMap_congr fun part _ => part_text identifiers part

theorem part_literal (part : TemplatePart) :
    (ofPart identifiers part).isLiteral = part.isLiteral := by
  cases part <;> rfl

theorem template_segments (path : String) : Segments path (ofTemplate path identifiers) := by
  rw [template_map]
  refine ⟨?whole, ?filled, ?apart, ?names, ?leftmost⟩
  case whole => rw [← String.toList_inj, parts_text, template_text, List.reverse_nil, List.nil_append]
  case filled =>
    intro member
    obtain ⟨part, isPart, same⟩ := List.mem_map.mp member
    cases part with
    | literal value =>
        have none : String.ofList value = "" := PathSegment.literal.inj same
        exact literal_filled [] path.toList value isPart (String.ofList_eq_empty_iff.mp none)
    | placeholder name => cases same
  case apart =>
    rw [List.isChain_map]
    simpa only [part_literal] using literals_apart [] path.toList
  case names =>
    rw [List.filterMap_map, placeholders]
    exact List.filterMap_congr fun part _ => by cases part <;> rfl
  case leftmost =>
    intro value after suffix s some within name rest starts
    obtain ⟨parts, isSuffix, same⟩ := List.suffix_map_iff.mp suffix
    obtain ⟨part, later, rfl, isLiteral, rfl⟩ := List.map_eq_cons_iff.mp same.symm
    cases part with
    | literal text =>
        obtain rfl : String.ofList text = value := PathSegment.literal.inj isLiteral
        have unread := literals_leftmost [] path.toList
          (fun s some within => absurd (List.suffix_nil.mp within) some) text later isSuffix
        rw [String.toList_ofList] at within
        rw [parts_text, ← placeholder_iff, unread s some within] at starts
        cases starts
    | placeholder name => cases isLiteral

theorem parameter_mem (path name wireName : String)
    (member : .parameter name wireName ∈ ofTemplate path identifiers) :
    wireName ∈ placeholders path
      ∧ name = (identifiers.lookup wireName).getD (parameterName wireName) := by
  rw [template_map] at member
  obtain ⟨part, isPart, same⟩ := List.mem_map.mp member
  cases part with
  | literal value => cases same
  | placeholder text =>
      obtain ⟨rfl, rfl⟩ := PathSegment.parameter.inj same
      exact ⟨List.mem_filterMap.mpr ⟨.placeholder text, isPart, rfl⟩, rfl⟩

end PathSegment

end OpenApi
