import OpenApi.Proofs.Naming.Identifier

set_option autoImplicit false

namespace OpenApi

namespace Text

-- What a character may become in a camel case: one that is ASCII stays itself but for its case.
def Image (c : Char) (image : List Char) : Prop :=
  c.isAlphanum = true → ∃ d, image = [d] ∧ d.toLower = c.toLower

theorem lower_image (c : Char) : Image c (lowerCase c) := by
  intro plain
  rw [lowerCase, if_pos (small_of_alphanum c plain)]
  exact ⟨c.toLower, rfl, by simp⟩

theorem upper_image (c : Char) : Image c (upperCase c) := by
  intro plain
  rw [upperCase, if_pos (small_of_alphanum c plain)]
  exact ⟨c.toUpper, rfl, by simp⟩

theorem lower_word_images (w : List Char) :
    ∃ images, List.Forall₂ Image w images ∧ lowerWord w = images.flatten := by
  fun_induction lowerWord w with
  | case1 => exact ⟨[], .nil, rfl⟩
  | case2 => exact ⟨[['ς']], .cons (fun plain => absurd plain (by decide)) .nil, rfl⟩
  | case3 c other => exact ⟨[lowerCase c], .cons (lower_image c) .nil, by simp⟩
  | case4 c rest more ih =>
      obtain ⟨images, each, whole⟩ := ih
      exact ⟨lowerCase c :: images, .cons (lower_image c) each, by rw [whole, List.flatten_cons]⟩

theorem capitalized_word_images (w : List Char) :
    ∃ images, List.Forall₂ Image w images ∧ capitalizedWord w = images.flatten := by
  cases w with
  | nil => exact ⟨[], .nil, rfl⟩
  | cons c rest =>
      obtain ⟨images, each, whole⟩ := lower_word_images rest
      refine ⟨upperCase c :: images, .cons (upper_image c) each, ?_⟩
      rw [capitalizedWord, whole, List.flatten_cons]

theorem capitalized_words_images (ws : List (List Char)) :
    ∃ images, List.Forall₂ Image ws.flatten images ∧ ws.flatMap capitalizedWord = images.flatten := by
  induction ws with
  | nil => exact ⟨[], .nil, rfl⟩
  | cons w rest ih =>
      obtain ⟨first, eachFirst, wholeFirst⟩ := capitalized_word_images w
      obtain ⟨others, eachOther, wholeOthers⟩ := ih
      refine ⟨first ++ others, ?_, ?_⟩
      · exact List.rel_append eachFirst eachOther
      · rw [List.flatMap_cons, wholeFirst, wholeOthers, List.flatten_append]

section Ending

variable (part : List Char) (plain : Plain part)

include plain

theorem plain_images (images : List (List Char)) (each : List.Forall₂ Image part images) :
    images.flatten.map Char.toLower = part.map Char.toLower := by
  induction each with
  | nil => rfl
  | cons first _ ih =>
      obtain ⟨plainFirst, plainRest⟩ := List.forall_mem_cons.mp plain
      obtain ⟨d, rfl, same⟩ := first plainFirst
      rw [List.flatten_cons, List.singleton_append, List.map_cons, List.map_cons, same, ih plainRest]

theorem images_ending (start : List Char) (images : List (List Char))
    (each : List.Forall₂ Image (start ++ part) images) :
    part.map Char.toLower <:+ images.flatten.map Char.toLower := by
  induction start generalizing images with
  | nil => exact (plain_images part plain images each).symm ▸ List.suffix_refl _
  | cons c rest ih =>
      cases each with
      | @cons _ image _ others _ later =>
          rw [List.flatten_cons, List.map_append]
          exact (ih others later).trans (List.suffix_append _ _)

theorem upper_camel_ending (s : List Char) (ends : part <:+ s) :
    part.map Char.toLower <:+ (upperCamel s).map Char.toLower := by
  obtain ⟨start, rfl⟩ := ends
  obtain ⟨images, each, whole⟩ := capitalized_words_images (words (start ++ part))
  rw [words_flatten, List.filter_append, plain_letters part plain] at each
  rw [upperCamel, whole]
  exact images_ending part plain _ images each

end Ending

end Text

namespace Naming

open Text

theorem type_name_ending (raw : String) (part : List Char) (plain : Plain part)
    (ends : part <:+ raw.toList) :
    part.map Char.toLower <:+ (typeName raw).toList.map Char.toLower := by
  rcases type_name_cases raw with ⟨c, rest, isName, -, named⟩ | ⟨-, named⟩
  · have same : (c.toUpper :: rest).map Char.toLower = raw.toList.map Char.toLower := by
      rw [isName, List.map_cons, List.map_cons]
      simp
    rw [named, String.toList_ofList, same]
    exact ends.map _
  · rw [named, String.toList_ofList]
    exact upper_camel_ending part plain _ ends

theorem unique_base (base : String) (taken : List String) (last : Char)
    (letter : last.isDigit = false) (ends : [last] <:+ (unique base taken).toList) :
    unique base taken = base := by
  obtain ⟨digits, isUnique, areDigits⟩ := unique_suffix base taken
  rw [isUnique] at ends ⊢
  rcases List.eq_nil_or_concat digits.toList with none | ⟨init, d, some⟩
  · rw [String.toList_eq_nil_iff.mp none, String.append_empty]
  · obtain ⟨start, whole⟩ := ends
    rw [List.concat_eq_append] at some
    rw [String.toList_append, some, ← List.append_assoc] at whole
    obtain ⟨-, same⟩ := List.append_inj' whole rfl
    have digit := areDigits d (some ▸ List.mem_append_right _ (List.mem_singleton_self d))
    cases same
    exact absurd (letter.symm.trans digit) nofun

end Naming

end OpenApi
