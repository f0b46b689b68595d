import Mathlib
import OpenApi.Text.Words

set_option autoImplicit false

namespace OpenApi.Text

section Splitting

variable (run : LetterRun) (word s : List Char)

theorem split_flatten : (splitPiece run word s).flatten = word.reverse ++ s := by
  fun_induction splitPiece run word s with
  | case1 run word noWord => simp [List.isEmpty_iff.mp noWord]
  | case2 run word someWord => simp
  | case3 run word c => simp
  | case4 run word c next rest run' ends ih => simp [ih]
  | case5 run word c next rest run' ends heads ih => simp [ih]
  | case6 run word c next rest run' ends heads ih => simp [ih]

-- A run of upper case letters belongs to the current word, which then has a letter.
theorem split_nonempty (started : run = .upper → word ≠ []) :
    ∀ w ∈ splitPiece run word s, w ≠ [] := by
  fun_induction splitPiece run word s with
  | case1 run word noWord => exact List.forall_mem_nil _
  | case2 run word someWord => simpa using someWord
  | case3 run word c => simp
  | case4 run word c next rest run' ends ih =>
      exact List.forall_mem_cons.mpr ⟨by simp, ih (by simp)⟩
  | case5 run word c next rest run' ends heads ih =>
      exact List.forall_mem_cons.mpr ⟨by simpa using started heads.1, ih (by simp)⟩
  | case6 run word c next rest run' ends heads ih => exact ih (by simp)

theorem words_nonempty : ∀ w ∈ words s, w ≠ [] := by
  intro w member
  obtain ⟨piece, _, inPiece⟩ := List.mem_flatMap.mp member
  exact split_nonempty .boundary [] piece (by simp) w inPiece

def Capital (w : List Char) : Prop := ∃ c ∈ w.head?, isUpper c = true

theorem split_starts (c : Char) (rest : List Char) (upper : isUpper c = true)
    (starts : word.reverse ++ s = c :: rest)
    (capitals : ∀ w ∈ (splitPiece .boundary word s).tail, Capital w) :
    ∀ w ∈ splitPiece .boundary word s, Capital w := by
  have whole := split_flatten .boundary word s
  have nonempty := split_nonempty .boundary word s (by simp)
  cases split : splitPiece .boundary word s with
  | nil => exact List.forall_mem_nil _
  | cons first others =>
      rw [split] at whole nonempty capitals
      obtain ⟨c', rest', rfl⟩ := List.exists_cons_of_ne_nil (nonempty first List.mem_cons_self)
      rw [starts, List.flatten_cons, List.cons_append, List.cons.injEq] at whole
      exact List.forall_mem_cons.mpr ⟨⟨c', rfl, whole.1 ▸ upper⟩, capitals⟩

theorem split_capitals : ∀ w ∈ (splitPiece run word s).tail, Capital w := by
  fun_induction splitPiece run word s with
  | case1 run word noWord => exact List.forall_mem_nil _
  | case2 run word someWord => exact List.forall_mem_nil _
  | case3 run word c => exact List.forall_mem_nil _
  | case4 run word c next rest run' ends ih => exact split_starts [] _ next rest ends.2 rfl ih
  | case5 run word c next rest run' ends heads ih =>
      exact split_starts [c] _ c (next :: rest) heads.2.1 rfl ih
  | case6 run word c next rest run' ends heads ih => exact ih

end Splitting

def Ascii (s : List Char) : Prop := ∀ c ∈ s, c.toNat < 128

instance (s : List Char) : Decidable (Ascii s) := List.decidableBAll _ s

theorem ascii_append (s s' : List Char) : Ascii (s ++ s') ↔ Ascii s ∧ Ascii s' :=
  List.forall_mem_append

theorem ascii_cons (c : Char) (s : List Char) : Ascii (c :: s) ↔ c.toNat < 128 ∧ Ascii s :=
  List.forall_mem_cons

section LetterCase

theorem small_of_alphanum (c : Char) (plain : c.isAlphanum = true) : c.toNat < 128 := by
  have lastDigit : '9'.toNat = 57 := rfl
  have lastUpper : 'Z'.toNat = 90 := rfl
  have lastLower : 'z'.toNat = 122 := rfl
  simp only [Char.isAlphanum, Char.isAlpha, Char.isUpper, Char.isLower, Char.isDigit,
    Bool.or_eq_true, Bool.and_eq_true, decide_eq_true_eq, ge_iff_le, UInt32.le_iff_toNat_le]
    at plain
  simp only [Char.toNat] at *
  omega

theorem small_lower (c : Char) (small : c.toNat < 128) : c.toLower.toNat < 128 := by
  by_cases upper : c.isUpper = true
  · have atMost : c.toNat ≤ 90 := by
      simp only [Char.isUpper, decide_eq_true_eq] at upper
      exact UInt32.le_iff_toNat_le.mp upper.2
    rw [Char.toLower_eq_of_isUpper upper, Char.toNat_ofNat]
    split <;> omega
  · rwa [Char.toLower_eq_of_not_isUpper upper]

theorem ascii_lowered (w : List Char) (ascii : Ascii w) : Ascii (w.map Char.toLower) := by
  intro c member
  obtain ⟨original, inWord, rfl⟩ := List.mem_map.mp member
  exact small_lower original (ascii original inWord)

theorem lower_word_ascii (w : List Char) (ascii : Ascii w) : lowerWord w = w.map Char.toLower := by
  fun_induction lowerWord w with
  | case1 => rfl
  | case2 => exact absurd (ascii 'Σ' List.mem_cons_self) (by decide)
  | case3 c other => exact if_pos (ascii c List.mem_cons_self)
  | case4 c rest more ih =>
      obtain ⟨small, asciiRest⟩ := List.forall_mem_cons.mp ascii
      rw [ih asciiRest, lowerCase, if_pos small]
      rfl

theorem capitalized_word_ascii (c : Char) (rest : List Char) (ascii : Ascii (c :: rest)) :
    capitalizedWord (c :: rest) = c.toUpper :: rest.map Char.toLower := by
  obtain ⟨small, asciiRest⟩ := List.forall_mem_cons.mp ascii
  rw [capitalizedWord, lower_word_ascii rest asciiRest, upperCase, if_pos small]
  rfl

section Words

variable (w : List Char) (ascii : Ascii w)

include ascii

theorem lower_lower_word : lowerWord (lowerWord w) = lowerWord w := by
  rw [lower_word_ascii w ascii, lower_word_ascii _ (ascii_lowered w ascii)]
  simp

theorem capitalized_lower_word : capitalizedWord (lowerWord w) = capitalizedWord w := by
  have asciiLowered := ascii_lowered w ascii
  rw [lower_word_ascii w ascii]
  cases w with
  | nil => rfl
  | cons c rest =>
      rw [List.map_cons] at asciiLowered ⊢
      rw [capitalized_word_ascii c rest ascii, capitalized_word_ascii _ _ asciiLowered]
      simp

theorem lowered_lower_word : (lowerWord w).map Char.toLower = lowerWord w := by
  rw [lower_word_ascii w ascii]
  simp

theorem lowered_capitalized_word : (capitalizedWord w).map Char.toLower = lowerWord w := by
  rw [lower_word_ascii w ascii]
  cases w with
  | nil => rfl
  | cons c rest =>
      rw [capitalized_word_ascii c rest ascii]
      simp

end Words

end LetterCase

section Camel

def camelWords : List (List Char) → List (List Char)
  | [] => []
  | first :: rest => lowerWord first :: rest.map capitalizedWord

theorem lower_camel_flatten (s : List Char) : lowerCamel s = (camelWords (words s)).flatten := by
  rw [lowerCamel]
  cases words s with
  | nil => rfl
  | cons first rest => simp only [camelWords, List.flatten_cons, List.flatMap_def]

section Words

variable (ws : List (List Char)) (ascii : ∀ w ∈ ws, Ascii w)

include ascii

theorem capitalized_words_lowered :
    (ws.map capitalizedWord).map (·.map Char.toLower) = ws.map lowerWord := by
  rw [List.map_map]
  exact List.map_congr_left fun w member => lowered_capitalized_word w (ascii w member)

theorem capitalized_words_lower :
    (ws.map lowerWord).map capitalizedWord = ws.map capitalizedWord := by
  rw [List.map_map]
  exact List.map_congr_left fun w member => capitalized_lower_word w (ascii w member)

theorem camel_words_lowered : (camelWords ws).map (·.map Char.toLower) = ws.map lowerWord := by
  cases ws with
  | nil => rfl
  | cons first rest =>
      obtain ⟨asciiFirst, asciiRest⟩ := List.forall_mem_cons.mp ascii
      rw [camelWords, List.map_cons, lowered_lower_word first asciiFirst,
        capitalized_words_lowered rest asciiRest, List.map_cons]

theorem camel_words_lower : camelWords (ws.map lowerWord) = camelWords ws := by
  cases ws with
  | nil => rfl
  | cons first rest =>
      obtain ⟨asciiFirst, asciiRest⟩ := List.forall_mem_cons.mp ascii
      rw [List.map_cons, camelWords, camelWords, lower_lower_word first asciiFirst,
        capitalized_words_lower rest asciiRest]

end Words

def continues (_ c : Char) : Bool := !c.isUpper

def CamelWord (w : List Char) : Prop := ∃ c, ∃ rest : List Char, w = c :: rest.map Char.toLower

theorem chain_of_tail {α : Type} (R : α → α → Prop) (l : List α)
    (related : ∀ a ∈ l, ∀ b ∈ l.tail, R a b) : l.IsChain R := by
  refine List.isChain_iff_getElem.mpr fun i short => ?_
  apply related _ (List.getElem_mem _)
  cases l with
  | nil => cases short
  | cons a rest => exact List.getElem_mem _

theorem camel_word_continues (w : List Char) (camel : CamelWord w) :
    w.IsChain (fun c d => continues c d = true) := by
  obtain ⟨c, rest, rfl⟩ := camel
  refine chain_of_tail _ _ fun _ _ d member => ?_
  obtain ⟨original, _, rfl⟩ := List.mem_map.mp member
  simp [continues]

theorem camel_words_tail (ws : List (List Char)) :
    (camelWords ws).tail = (ws.map capitalizedWord).tail := by
  cases ws <;> rfl

theorem camel_words_split (ws : List (List Char)) (shape : ∀ w ∈ ws, CamelWord w)
    (capitals : ∀ w ∈ ws.tail, ∃ some : w ≠ [], (w.head some).isUpper = true) :
    ws.flatten.splitBy continues = ws := by
  apply List.splitBy_flatten
  · intro absent
    obtain ⟨c, rest, wrong⟩ := shape [] absent
    cases wrong
  · exact fun w member => camel_word_continues w (shape w member)
  · refine chain_of_tail _ _ fun w member w' later => ?_
    obtain ⟨c, rest, rfl⟩ := shape w member
    obtain ⟨some, upper⟩ := capitals w' later
    exact ⟨List.cons_ne_nil _ _, some, by simp [continues, upper]⟩

end Camel

def Plain (s : List Char) : Prop := ∀ c ∈ s, c.isAlphanum = true

instance (s : List Char) : Decidable (Plain s) := List.decidableBAll _ s

theorem plain_ascii (s : List Char) (plain : Plain s) : Ascii s :=
  fun c member => small_of_alphanum c (plain c member)

theorem digits_plain (n : Nat) : Plain (Nat.toDigits 10 n) := by
  intro c member
  simp [Char.isAlphanum, Nat.isDigit_of_mem_toDigits (by decide) (by decide) member]

theorem alphanumeric_plain (c : Char) (plain : c.isAlphanum = true) : isAlphanumeric c = true := by
  rw [isAlphanumeric, if_pos (small_of_alphanum c plain), plain]

section Names

variable (s : List Char) (plain : Plain s)

theorem pieces_plain (piece : List Char) (plain : Plain s) :
    pieces piece s = [piece.reverse ++ s] := by
  induction s generalizing piece with
  | nil => simp [pieces]
  | cons c rest ih =>
      obtain ⟨plainFirst, plainRest⟩ := List.forall_mem_cons.mp plain
      have isLetter := alphanumeric_plain c plainFirst
      simp [pieces, isLetter, ih (c :: piece) plainRest]

include plain

theorem words_plain : words s = splitPiece .boundary [] s := by
  rw [words, pieces_plain s [] plain]
  simp

theorem words_ascii : ∀ w ∈ words s, Ascii w := by
  intro w member c inWord
  have whole := split_flatten .boundary [] s
  rw [← words_plain s plain, List.reverse_nil, List.nil_append] at whole
  apply plain_ascii s plain c
  rw [← whole]
  exact List.mem_flatten_of_mem member inWord

theorem capitalized_words_shape : ∀ w ∈ (words s).map capitalizedWord, CamelWord w := by
  refine List.forall_mem_map.mpr fun w member => ?_
  obtain ⟨c, rest, rfl⟩ := List.exists_cons_of_ne_nil (words_nonempty s w member)
  exact ⟨_, rest, capitalized_word_ascii c rest (words_ascii s plain _ member)⟩

theorem camel_words_shape : ∀ w ∈ camelWords (words s), CamelWord w := by
  have capitalized := capitalized_words_shape s plain
  have ascii := words_ascii s plain
  have nonempty := words_nonempty s
  cases isWords : words s with
  | nil => exact List.forall_mem_nil _
  | cons first rest =>
      rw [isWords] at capitalized ascii nonempty
      refine List.forall_mem_cons.mpr ⟨?_, (List.forall_mem_cons.mp capitalized).2⟩
      obtain ⟨c, others, rfl⟩ := List.exists_cons_of_ne_nil (nonempty first List.mem_cons_self)
      exact ⟨_, others, lower_word_ascii _ (ascii _ List.mem_cons_self)⟩

theorem camel_words_capitals : ∀ w ∈ ((words s).map capitalizedWord).tail,
    ∃ some : w ≠ [], (w.head some).isUpper = true := by
  have ascii := words_ascii s plain
  have capitals := split_capitals .boundary [] s
  rw [← words_plain s plain] at capitals
  rw [← List.map_tail]
  refine List.forall_mem_map.mpr fun w member => ?_
  obtain ⟨c, isHead, upper⟩ := capitals w member
  obtain ⟨others, rfl⟩ := List.head?_eq_some_iff.mp isHead
  have asciiWord := ascii _ (List.mem_of_mem_tail member)
  rw [isUpper, if_pos (asciiWord c List.mem_cons_self)] at upper
  rw [capitalized_word_ascii c others asciiWord]
  refine ⟨List.cons_ne_nil _ _, ?_⟩
  simpa [Char.isAlpha] using Or.inl upper

-- The words are read back from the camel case of a name, split before the upper case letters.
theorem lower_camel_split : (lowerCamel s).splitBy continues = camelWords (words s) := by
  rw [lower_camel_flatten]
  refine camel_words_split _ (camel_words_shape s plain) ?_
  rw [camel_words_tail]
  exact camel_words_capitals s plain

theorem upper_camel_split : (upperCamel s).splitBy continues = (words s).map capitalizedWord := by
  rw [upperCamel, List.flatMap_def]
  exact camel_words_split _ (capitalized_words_shape s plain) (camel_words_capitals s plain)

section Comparing

variable (s' : List Char) (plain' : Plain s')

include plain'

theorem lower_camel_eq_iff :
    lowerCamel s = lowerCamel s' ↔ (words s).map lowerWord = (words s').map lowerWord := by
  have ascii := words_ascii s plain
  have ascii' := words_ascii s' plain'
  constructor
  · intro same
    have sameWords := congrArg (·.splitBy continues) same
    rw [lower_camel_split s plain, lower_camel_split s' plain'] at sameWords
    rw [← camel_words_lowered _ ascii, ← camel_words_lowered _ ascii', sameWords]
  · intro same
    rw [lower_camel_flatten, lower_camel_flatten, ← camel_words_lower _ ascii,
      ← camel_words_lower _ ascii', same]

theorem upper_camel_eq_iff :
    upperCamel s = upperCamel s' ↔ (words s).map lowerWord = (words s').map lowerWord := by
  have ascii := words_ascii s plain
  have ascii' := words_ascii s' plain'
  constructor
  · intro same
    have sameWords := congrArg (·.splitBy continues) same
    rw [upper_camel_split s plain, upper_camel_split s' plain'] at sameWords
    rw [← capitalized_words_lowered _ ascii, ← capitalized_words_lowered _ ascii', sameWords]
  · intro same
    rw [upperCamel, upperCamel, List.flatMap_def, List.flatMap_def,
      ← capitalized_words_lower _ ascii, ← capitalized_words_lower _ ascii', same]

end Comparing

end Names

end OpenApi.Text
