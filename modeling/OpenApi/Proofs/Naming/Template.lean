import OpenApi.Document.Parse
import OpenApi.Proofs.Naming.Identifier

set_option autoImplicit false

namespace OpenApi

namespace Naming

open Text

structure StartsWith (text name after : List Char) : Prop where
  whole : text = '\x7b' :: name ++ '\x7d' :: after
  some : name ≠ []
  closed : '\x7d' ∉ name

section Parts

theorem drop_taken (p : Char → Bool) (text : List Char) :
    text.drop (text.takeWhile p).length = text.dropWhile p :=
  (congrArg (List.drop _) text.takeWhile_append_dropWhile.symm).trans List.drop_left

theorem placeholder_starts (text name after : List Char)
    (found : placeholder? text = some (name, after)) : StartsWith text name after := by
  unfold placeholder? at found
  split at found
  · rename_i rest
    dsimp only at found
    rw [drop_taken] at found
    split at found
    · rename_i c more close tail isName remaining
      cases found
      have whole := rest.takeWhile_append_dropWhile (p := (· != '\x7d'))
      have stops := List.head?_dropWhile_not (· != '\x7d') rest
      rw [remaining] at stops whole
      obtain rfl : close = '\x7d' := by simpa using stops
      refine ⟨congrArg _ whole.symm, by rw [isName]; exact List.cons_ne_nil c more, fun inside => ?_⟩
      simpa using List.mem_takeWhile_imp inside
    · cases found
  · cases found

theorem placeholder_iff (text name after : List Char) :
    placeholder? text = some (name, after) ↔ StartsWith text name after := by
  refine ⟨placeholder_starts text name after, ?_⟩
  rintro ⟨rfl, some, closed⟩
  obtain ⟨c, more, rfl⟩ := List.exists_cons_of_ne_nil some
  have inside : ∀ d ∈ c :: more, (d != '\x7d') = true :=
    fun d member => bne_iff_ne.mpr fun same => closed (same ▸ member)
  have taken : (c :: more ++ '\x7d' :: after).takeWhile (· != '\x7d') = c :: more := by
    rw [List.takeWhile_append_of_pos inside, List.takeWhile_cons_of_neg (by simp), List.append_nil]
  simp only [List.cons_append] at taken ⊢
  rw [placeholder?]
  simp [taken]

theorem placeholder_within (text name after : List Char)
    (found : placeholder? text = some (name, after)) : name ⊆ text ∧ after ⊆ text := by
  rw [(placeholder_starts text name after found).whole]
  refine ⟨?_, ?_⟩
  · exact List.subset_append_of_subset_left _ (List.subset_cons_self _ name)
  · exact List.subset_append_of_subset_right _ (List.subset_cons_self _ after)

theorem mem_literal_parts (literal : List Char) (part : TemplatePart) :
    part ∈ literalParts literal ↔ literal ≠ [] ∧ part = .literal literal.reverse := by
  rw [literalParts]
  split <;> simp_all

theorem literal_no_placeholder (reversed name : List Char) :
    .placeholder name ∉ literalParts reversed := by
  rw [mem_literal_parts]
  rintro ⟨-, ⟨⟩⟩

theorem template_within (literal text : List Char) :
    ∀ name, .placeholder name ∈ templateParts literal text → name ⊆ text := by
  fun_induction templateParts literal text with
  | case1 literal => exact fun name member => absurd member (literal_no_placeholder literal name)
  | case2 literal c rest first after found _ ih =>
      obtain ⟨inText, afterInText⟩ := placeholder_within (c :: rest) first after found
      intro name member
      rcases List.mem_append.mp member with isLiteral | member
      · exact absurd isLiteral (literal_no_placeholder literal name)
      · rcases List.mem_cons.mp member with same | later
        · cases same
          exact inText
        · exact List.Subset.trans (ih name later) afterInText
  | case3 literal c rest none ih =>
      exact fun name member => List.subset_cons_of_subset c (ih name member)

theorem split_within (separator : Char) (s : List Char) : ∀ piece ∈ splitAt separator s, piece ⊆ s := by
  induction s with
  | nil => simp [splitAt]
  | cons c rest ih =>
      rw [splitAt]
      split
      · refine List.forall_mem_cons.mpr ⟨List.nil_subset _, fun piece member => ?_⟩
        exact List.subset_cons_of_subset c (ih piece member)
      · split
        · exact List.forall_mem_singleton.mpr (List.cons_subset_cons c (List.nil_subset _))
        · rename_i piece pieces isSplit
          rw [isSplit] at ih
          obtain ⟨first, others⟩ := List.forall_mem_cons.mp ih
          refine List.forall_mem_cons.mpr ⟨List.cons_subset_cons c first, fun piece member => ?_⟩
          exact List.subset_cons_of_subset c (others piece member)

end Parts

theorem segment_name_plain (segment : List Char) (ascii : Ascii segment) :
    Plain (segmentName segment) := by
  rw [segmentName]
  split
  · rename_i name found
    have inSegment := (placeholder_within segment name [] found).1
    have plain := upper_camel_plain name fun c inName => ascii c (inSegment inName)
    exact List.forall_mem_cons.mpr ⟨rfl, List.forall_mem_cons.mpr ⟨rfl, plain⟩⟩
  · exact upper_camel_plain segment ascii

section Paths

variable (path : String) (ascii : Ascii path.toList)

include ascii

theorem placeholder_ascii : ∀ name ∈ placeholders path, Ascii name.toList := by
  intro name member
  obtain ⟨part, isPart, isName⟩ := List.mem_filterMap.mp member
  cases part with
  | literal text => cases isName
  | placeholder text =>
      cases isName
      rw [String.toList_ofList]
      exact fun c inName => ascii c (template_within [] path.toList text isPart inName)

theorem operation_name_valid (method : String)
    (isMethod : IsTypeName (String.ofList (upperCamel method.toList))) :
    IsTypeName (operationName method path) := by
  obtain ⟨⟨some, plain⟩, capital⟩ := isMethod
  rw [operationName, String.ofList_append]
  refine ⟨⟨fun empty => some (String.append_eq_empty_iff.mp empty).1, ?_⟩, ?_⟩
  · refine (consists_append _ _ _).mpr ⟨plain, ?_⟩
    rw [Consists, String.toList_ofList]
    intro c member
    obtain ⟨segment, isSegment, inName⟩ := List.mem_flatMap.mp member
    have inPath := split_within '/' path.toList segment (List.mem_filter.mp isSegment).1
    exact segment_name_plain segment (fun c here => ascii c (inPath here)) c inName
  · rwa [append_head _ _ some]

end Paths

end Naming

theorem Document.operation_method (d : Document) (entry : OperationEntry)
    (member : entry ∈ d.operations) :
    entry.method ∈ ["GET", "PUT", "POST", "DELETE", "OPTIONS", "HEAD", "PATCH", "TRACE"] := by
  obtain ⟨⟨path, item⟩, _, isOperation⟩ := List.mem_flatMap.mp member
  obtain ⟨⟨method, operation⟩, inItem, rfl⟩ := List.mem_map.mp isOperation
  obtain ⟨⟨name, given⟩, isMethod, present⟩ := List.mem_filterMap.mp inItem
  obtain ⟨_, _, same⟩ := Option.map_eq_some_iff.mp present
  cases same
  have inNames := List.mem_map_of_mem (f := Prod.fst) isMethod
  exact inNames

theorem OperationEntry.name_valid (d : Document) (entry : OperationEntry)
    (member : entry ∈ d.operations) (asciiPath : Text.Ascii entry.path.toList)
    (asciiId : ∀ id ∈ entry.operation.operationId, Text.Ascii id.toList) :
    Naming.IsTypeName entry.name := by
  rw [OperationEntry.name]
  split
  · rename_i name isName
    obtain ⟨present, some⟩ := Option.filter_eq_some_iff.mp isName
    obtain ⟨id, given, rfl⟩ := Option.map_eq_some_iff.mp present
    exact Naming.type_name_valid id (asciiId id given) (by simpa [String.isEmpty_iff] using some)
  · apply Naming.operation_name_valid entry.path asciiPath
    have methods : ∀ method ∈ ["GET", "PUT", "POST", "DELETE", "OPTIONS", "HEAD", "PATCH", "TRACE"],
        Text.Ascii method.toList ∧ Text.upperCamel method.toList ≠ [] := by decide
    obtain ⟨ascii, some⟩ := methods entry.method (d.operation_method entry member)
    exact Naming.upper_camel_valid entry.method.toList ascii some

end OpenApi
