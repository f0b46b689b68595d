import OpenApi.Proofs.Text.Words

set_option autoImplicit false

namespace OpenApi.Text

theorem small_forall (P : Char → Prop) (all : ∀ n < 128, P (Char.ofNat n)) (c : Char)
    (small : c.toNat < 128) : P c :=
  Char.ofNat_toNat c ▸ all c.toNat small

section Words

variable (s : List Char)

theorem pieces_flatten (piece : List Char) :
    (pieces piece s).flatten = piece.reverse ++ s.filter isAlphanumeric := by
  fun_induction pieces piece s with
  | case1 piece => simp
  | case2 piece c rest isLetter ih => simp [ih, isLetter]
  | case3 piece c rest other ih => simp [ih, other]

theorem words_flatten : (words s).flatten = s.filter isAlphanumeric := by
  have split (piece : List Char) : (splitPiece .boundary [] piece).flatten = piece :=
    split_flatten .boundary [] piece
  have whole := pieces_flatten s []
  rw [List.reverse_nil, List.nil_append] at whole
  rw [words, List.flatMap_def, List.flatten_flatten, List.map_map, ← whole]
  exact congrArg List.flatten ((List.map_congr_left fun piece _ => split piece).trans (List.map_id _))

end Words

structure CaseClosed (Q : Char → Prop) : Prop where
  upper : ∀ c, Q c → ∀ d ∈ upperCase c, Q d
  lower : ∀ c, Q c → ∀ d ∈ lowerCase c, Q d
  final : Q 'Σ' → Q 'ς'

section Classes

variable (Q : Char → Prop)

section Words

variable (closed : CaseClosed Q)

include closed

theorem lower_word_class (w : List Char) (inClass : ∀ c ∈ w, Q c) : ∀ d ∈ lowerWord w, Q d := by
  fun_induction lowerWord w with
  | case1 => exact List.forall_mem_nil _
  | case2 => simpa using closed.final (inClass 'Σ' List.mem_cons_self)
  | case3 c other => exact closed.lower c (inClass c List.mem_cons_self)
  | case4 c rest more ih =>
      obtain ⟨first, others⟩ := List.forall_mem_cons.mp inClass
      exact List.forall_mem_append.mpr ⟨closed.lower c first, ih others⟩

theorem capitalized_word_class (w : List Char) (inClass : ∀ c ∈ w, Q c) :
    ∀ d ∈ capitalizedWord w, Q d := by
  cases w with
  | nil => exact List.forall_mem_nil _
  | cons c rest =>
      obtain ⟨first, others⟩ := List.forall_mem_cons.mp inClass
      exact List.forall_mem_append.mpr ⟨closed.upper c first, lower_word_class Q closed rest others⟩

end Words

variable (s : List Char) (letters : ∀ c ∈ s, isAlphanumeric c = true → Q c)

include letters

theorem words_class : ∀ w ∈ words s, ∀ c ∈ w, Q c := by
  intro w member c inWord
  have inName : c ∈ (words s).flatten := List.mem_flatten_of_mem member inWord
  rw [words_flatten, List.mem_filter] at inName
  exact letters c inName.1 inName.2

theorem upper_camel_class (closed : CaseClosed Q) : ∀ d ∈ upperCamel s, Q d := by
  intro d member
  obtain ⟨w, isWord, inWord⟩ := List.mem_flatMap.mp member
  exact capitalized_word_class Q closed w (words_class Q s letters w isWord) d inWord

theorem lower_camel_class (closed : CaseClosed Q) : ∀ d ∈ lowerCamel s, Q d := by
  have inClass := words_class Q s letters
  rw [lowerCamel]
  cases isWords : words s with
  | nil => exact List.forall_mem_nil _
  | cons first rest =>
      rw [isWords] at inClass
      obtain ⟨inFirst, inRest⟩ := List.forall_mem_cons.mp inClass
      refine List.forall_mem_append.mpr ⟨lower_word_class Q closed first inFirst, fun d member => ?_⟩
      obtain ⟨w, isWord, inWord⟩ := List.mem_flatMap.mp member
      exact capitalized_word_class Q closed w (inRest w isWord) d inWord

end Classes

section Marks

-- The characters other than those that the escapes of reserved words add.
def Unmarked (c : Char) : Prop := c ≠ '@' ∧ c ≠ '_'

instance : DecidablePred Unmarked := fun _ => instDecidableAnd

theorem unmarked_of_nat (n : Nat) (clear : n ≠ 64 ∧ n ≠ 95) : Unmarked (Char.ofNat n) := by
  have isMark (mark : Char) (same : Char.ofNat n = mark) (some : mark.toNat ≠ 0) :
      n = mark.toNat := by
    rw [← same, Char.toNat_ofNat] at some ⊢
    split
    · rfl
    · rename_i invalid
      exact absurd (if_neg invalid) some
  exact ⟨fun same => clear.1 (isMark '@' same (by decide)),
    fun same => clear.2 (isMark '_' same (by decide))⟩

def Shift.misses (n : Nat) (shift : Shift) : Bool :=
  decide ((n : Int) < shift.1 + shift.2.2.2) || decide (shift.2.1 + shift.2.2.2 < (n : Int))

theorem shift_misses (shift : Shift) (n c image : Nat) (positive : 0 < n)
    (misses : shift.misses n = true) (found : shift.image? c = some image) : image ≠ n := by
  obtain ⟨inRun, rfl⟩ := Option.ite_some_none_eq_some.mp found
  simp only [Shift.misses, Run.contains, Bool.or_eq_true, Bool.and_eq_true, decide_eq_true_eq]
    at misses inRun
  omega

theorem case_map_unmarked (expansions : List (Nat × List Nat)) (shifts : List Shift)
    (clear : ∀ expansion ∈ expansions, ∀ n ∈ expansion.2, n ≠ 64 ∧ n ≠ 95)
    (misses : ∀ shift ∈ shifts, shift.misses 64 = true ∧ shift.misses 95 = true)
    (c : Char) (unmarked : Unmarked c) : ∀ d ∈ caseMap expansions shifts c, Unmarked d := by
  rw [caseMap]
  split
  · rename_i image found
    obtain ⟨before, after, isEntry, _⟩ := List.lookup_eq_some_iff.mp found
    refine List.forall_mem_map.mpr fun n member => unmarked_of_nat n ?_
    exact clear (c.toNat, image) (isEntry ▸ by simp) n member
  · split
    · rename_i image found
      obtain ⟨shift, member, isImage⟩ := List.exists_of_findSome?_eq_some found
      obtain ⟨missesFirst, missesLast⟩ := misses shift member
      refine List.forall_mem_singleton.mpr (unmarked_of_nat image ⟨?_, ?_⟩)
      · exact shift_misses shift 64 c.toNat image (by decide) missesFirst isImage
      · exact shift_misses shift 95 c.toNat image (by decide) missesLast isImage
    · exact List.forall_mem_singleton.mpr unmarked

theorem small_case_unmarked (c : Char) (small : c.toNat < 128) :
    Unmarked c → Unmarked c.toUpper ∧ Unmarked c.toLower :=
  small_forall (fun c => Unmarked c → Unmarked c.toUpper ∧ Unmarked c.toLower) (by decide +kernel)
    c small

theorem unmarked_closed : CaseClosed Unmarked where
  upper c unmarked := by
    rw [upperCase]
    split
    · rename_i small
      exact List.forall_mem_singleton.mpr (small_case_unmarked c small unmarked).1
    · exact case_map_unmarked _ _ (by decide +kernel) (by decide +kernel) c unmarked
  lower c unmarked := by
    rw [lowerCase]
    split
    · rename_i small
      exact List.forall_mem_singleton.mpr (small_case_unmarked c small unmarked).2
    · exact case_map_unmarked _ _ (by decide +kernel) (by decide +kernel) c unmarked
  final _ := by decide

end Marks

section Ascii

theorem digit_not_letter (c : Char) (digit : c.isDigit = true) : c.isAlpha = false := by
  have small := small_of_alphanum c (by simp [Char.isAlphanum, digit])
  exact small_forall (fun c => c.isDigit = true → c.isAlpha = false) (by decide +kernel) c small digit

theorem lower_digit (c : Char) (digit : c.isDigit = true) : c.toLower = c := by
  have small := small_of_alphanum c (by simp [Char.isAlphanum, digit])
  exact small_forall (fun c => c.isDigit = true → c.toLower = c) (by decide +kernel) c small digit

theorem upper_digit (c : Char) (small : c.toNat < 128) : c.toUpper.isDigit = c.isDigit :=
  small_forall (fun c => c.toUpper.isDigit = c.isDigit) (by decide +kernel) c small

theorem alphanum_closed : CaseClosed (·.isAlphanum = true) where
  upper c plain := by
    have small := small_of_alphanum c plain
    rw [upperCase, if_pos small]
    exact List.forall_mem_singleton.mpr (small_forall
      (fun c => c.isAlphanum = true → c.toUpper.isAlphanum = true) (by decide +kernel) c small plain)
  lower c plain := by
    have small := small_of_alphanum c plain
    rw [lowerCase, if_pos small]
    exact List.forall_mem_singleton.mpr (small_forall
      (fun c => c.isAlphanum = true → c.toLower.isAlphanum = true) (by decide +kernel) c small plain)
  final plain := absurd plain (by decide)

theorem plain_letters (s : List Char) (plain : Plain s) : s.filter isAlphanumeric = s :=
  List.filter_eq_self.mpr fun c member => alphanumeric_plain c (plain c member)

variable (s : List Char) (ascii : Ascii s)

include ascii

theorem ascii_letters : ∀ c ∈ s, isAlphanumeric c = true → c.isAlphanum = true := by
  intro c member letter
  rwa [isAlphanumeric, if_pos (ascii c member)] at letter

theorem upper_camel_plain : Plain (upperCamel s) :=
  upper_camel_class _ s (ascii_letters s ascii) alphanum_closed

theorem lower_camel_plain : Plain (lowerCamel s) :=
  lower_camel_class _ s (ascii_letters s ascii) alphanum_closed

theorem upper_camel_head :
    (upperCamel s).head? = (s.filter isAlphanumeric).head?.map Char.toUpper := by
  have whole := words_flatten s
  have nonempty := words_nonempty s
  have inClass := words_class (·.toNat < 128) s fun c member _ => ascii c member
  rw [upperCamel, ← whole]
  cases isWords : words s with
  | nil => rfl
  | cons first rest =>
      rw [isWords] at nonempty inClass
      obtain ⟨c, others, rfl⟩ := List.exists_cons_of_ne_nil (nonempty first List.mem_cons_self)
      have small := inClass _ List.mem_cons_self c List.mem_cons_self
      rw [List.flatMap_cons, capitalizedWord, upperCase, if_pos small]
      rfl

end Ascii

end OpenApi.Text
