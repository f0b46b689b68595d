import OpenApi.Proofs.Naming.Fresh
import OpenApi.Proofs.Text.Camel

set_option autoImplicit false

namespace OpenApi.Naming

open Text

section Characters

variable (Q : Char → Prop)

def Consists (name : String) : Prop := ∀ c ∈ name.toList, Q c

instance [DecidablePred Q] (name : String) : Decidable (Consists Q name) :=
  List.decidableBAll Q name.toList

theorem consists_append (name name' : String) :
    Consists Q (name ++ name') ↔ Consists Q name ∧ Consists Q name' := by
  rw [Consists, String.toList_append, List.forall_mem_append, Consists, Consists]

theorem parameter_name_consists (closed : CaseClosed Q) (wireName : String)
    (letters : ∀ c ∈ wireName.toList, isAlphanumeric c = true → Q c)
    (own : Consists Q "param") : Consists Q (parameterName wireName) := by
  have camel : Consists Q (String.ofList (lowerCamel wireName.toList)) := by
    rw [Consists, String.toList_ofList]
    exact lower_camel_class Q wireName.toList letters closed
  unfold parameterName
  dsimp only
  split
  · exact own
  · split
    · refine (consists_append Q _ _).mpr ⟨fun c member => own c ?_, camel⟩
      exact List.mem_cons.mpr (.inl (List.mem_singleton.mp member))
    · exact camel

theorem consists_weaken (R : Char → Prop) (weaker : ∀ c, Q c → R c) (name : String)
    (inClass : Consists Q name) : Consists R name := fun c member => weaker c (inClass c member)

end Characters

section Unique

variable (base : String) (taken : List String)

theorem nat_text_digits (n : Nat) : Consists (·.isDigit = true) (natText n) := by
  rw [Consists, natText, String.toList_ofList]
  exact fun c => Nat.isDigit_of_mem_toDigits (by decide) (by decide)

theorem nat_text_plain (n : Nat) : Consists (·.isAlphanum = true) (natText n) := by
  rw [Consists, natText, String.toList_ofList]
  exact digits_plain n

theorem nat_text_ascii (n : Nat) : Ascii (natText n).toList := plain_ascii _ (nat_text_plain n)

theorem unique_suffix : ∃ digits : String,
    unique base taken = base ++ digits ∧ Consists (·.isDigit = true) digits := by
  obtain ⟨k, first⟩ := first_free_exists base taken
  rw [unique_eq_candidate base taken k first]
  cases k with
  | zero => exact ⟨"", (String.append_empty).symm, List.forall_mem_nil _⟩
  | succ k => exact ⟨natText (k + 2), rfl, nat_text_digits (k + 2)⟩

theorem unique_consists (Q : Char → Prop) (digits : ∀ c, c.isDigit = true → Q c)
    (inClass : Consists Q base) : Consists Q (unique base taken) := by
  obtain ⟨number, isUnique, isNumber⟩ := unique_suffix base taken
  rw [isUnique, consists_append]
  exact ⟨inClass, consists_weaken _ Q digits number isNumber⟩

theorem append_head (name name' : String) (some : name ≠ "") :
    (name ++ name').toList.head? = name.toList.head? := by
  rw [String.toList_append, List.head?_append_of_ne_nil]
  exact fun empty => some (String.toList_eq_nil_iff.mp empty)

theorem unique_head (some : base ≠ "") :
    (unique base taken).toList.head? = base.toList.head? := by
  obtain ⟨number, isUnique, _⟩ := unique_suffix base taken
  rw [isUnique, append_head base number some]

end Unique

section TypeNames

theorem upper_upper (c : Char) : c.toUpper.toUpper = c.toUpper :=
  Char.toUpper_eq_of_not_isLower (by simp)

variable (raw : String)

theorem starts_with_digit : startsWithDigit raw = raw.toList.head?.any Char.isDigit := by
  rw [startsWithDigit]
  cases raw.toList <;> rfl

theorem type_name_cases :
    (∃ c rest, raw.toList = c :: rest ∧ isPlainIdentifier (c :: rest) = true
      ∧ typeName raw = String.ofList (c.toUpper :: rest))
    ∨ isPlainIdentifier raw.toList = false ∧ typeName raw = String.ofList (upperCamel raw.toList) := by
  rw [typeName]
  cases isName : raw.toList with
  | nil => exact .inr ⟨rfl, rfl⟩
  | cons c rest =>
      cases isPlain : isPlainIdentifier (c :: rest) with
      | true => exact .inl ⟨c, rest, rfl, isPlain, if_pos isPlain⟩
      | false => exact .inr ⟨rfl, if_neg (ne_true_of_eq_false isPlain)⟩

theorem type_name_of_digit (digit : startsWithDigit raw = true) :
    typeName raw = String.ofList (upperCamel raw.toList) := by
  rcases type_name_cases raw with ⟨c, rest, isName, isPlain, _⟩ | ⟨_, named⟩
  · rw [starts_with_digit, isName, List.head?_cons, Option.any_some] at digit
    rw [isPlainIdentifier, digit_not_letter c digit] at isPlain
    cases isPlain
  · exact named

theorem plain_of_identifier (isPlain : isPlainIdentifier raw.toList = true) : Plain raw.toList := by
  cases isName : raw.toList with
  | nil => exact List.forall_mem_nil _
  | cons c rest =>
      rw [isName, isPlainIdentifier, Bool.and_eq_true, List.all_eq_true] at isPlain
      exact List.forall_mem_cons.mpr ⟨by simp [Char.isAlphanum, isPlain.1], isPlain.2⟩

variable (ascii : Ascii raw.toList)

include ascii

theorem type_name_plain : Plain (typeName raw).toList := by
  rcases type_name_cases raw with ⟨c, rest, isName, isPlain, named⟩ | ⟨_, named⟩
  · have plain := plain_of_identifier raw (isName ▸ isPlain)
    obtain ⟨first, others⟩ := List.forall_mem_cons.mp (isName ▸ plain)
    rw [named, String.toList_ofList]
    have small := small_of_alphanum c first
    have upper := alphanum_closed.upper c first
    rw [upperCase, if_pos small] at upper
    exact List.forall_mem_cons.mpr ⟨upper _ (List.mem_singleton_self _), others⟩
  · rw [named, String.toList_ofList]
    exact upper_camel_plain raw.toList ascii

theorem type_name_ascii : Ascii (typeName raw).toList := plain_ascii _ (type_name_plain raw ascii)

theorem type_name_head : (typeName raw).toList.head?
    = (raw.toList.filter isAlphanumeric).head?.map Char.toUpper := by
  rcases type_name_cases raw with ⟨c, rest, isName, isPlain, named⟩ | ⟨_, named⟩
  · rw [plain_letters _ (plain_of_identifier raw (isName ▸ isPlain)), named, isName,
      String.toList_ofList]
    rfl
  · rw [named, String.toList_ofList]
    exact upper_camel_head raw.toList ascii

theorem type_name_digit : startsWithDigit (typeName raw)
    = (raw.toList.filter isAlphanumeric).head?.any Char.isDigit := by
  rw [starts_with_digit, type_name_head raw ascii]
  cases isFirst : (raw.toList.filter isAlphanumeric).head? with
  | none => rfl
  | some c => exact upper_digit c (ascii c (List.mem_filter.mp (List.mem_of_head? isFirst)).1)

theorem type_name_twice_digit :
    startsWithDigit (typeName (typeName raw)) = startsWithDigit (typeName raw) := by
  rw [type_name_digit _ (type_name_ascii raw ascii), plain_letters _ (type_name_plain raw ascii),
    ← starts_with_digit]

theorem type_name_stable (letter : startsWithDigit (typeName raw) = false) :
    typeName (typeName raw) = typeName raw := by
  have plain := type_name_plain raw ascii
  have head := type_name_head raw ascii
  cases isName : (typeName raw).toList with
  | nil =>
      rw [String.toList_eq_nil_iff.mp isName]
      rfl
  | cons c rest =>
      rw [starts_with_digit, isName, List.head?_cons, Option.any_some] at letter
      rw [isName] at plain head
      obtain ⟨first, others⟩ := List.forall_mem_cons.mp plain
      obtain ⟨original, _, rfl⟩ := Option.map_eq_some_iff.mp head.symm
      have upper := upper_upper original
      have isPlain : isPlainIdentifier (original.toUpper :: rest) = true := by
        rw [isPlainIdentifier, Bool.and_eq_true, List.all_eq_true]
        refine ⟨?_, others⟩
        rwa [Char.isAlphanum, letter, Bool.or_false] at first
      calc typeName (typeName raw)
          = String.ofList (original.toUpper.toUpper :: rest) := by
            rw [typeName, isName]
            exact if_pos isPlain
        _ = typeName raw := by rw [upper, ← isName, String.ofList_toList]

end TypeNames

section Identifiers

def IsWord (name : String) : Prop := name ≠ "" ∧ Consists (·.isAlphanum = true) name

def IsName (name : String) : Prop :=
  name ≠ "" ∧ Consists (fun c => c.isAlphanum = true ∨ c = '_') name

def IsIdentifier (name : String) : Prop := IsName name ∧ startsWithDigit name = false

def IsTypeName (name : String) : Prop := IsWord name ∧ ∀ c ∈ name.toList.head?, c.toUpper = c

instance (name : String) : Decidable (IsWord name) := instDecidableAnd

instance (name : String) : Decidable (IsName name) := instDecidableAnd

instance (name : String) : Decidable (IsIdentifier name) := instDecidableAnd

instance (name : String) : Decidable (IsTypeName name) := instDecidableAnd

theorem name_of_word (name : String) (word : IsWord name) : IsName name :=
  ⟨word.1, consists_weaken _ _ (fun _ => .inl) name word.2⟩

section Unique

variable (base : String) (taken : List String)

theorem unique_some (some : base ≠ "") : unique base taken ≠ "" := by
  intro empty
  have head := unique_head base taken some
  rw [empty] at head
  exact some (String.toList_eq_nil_iff.mp (List.head?_eq_none_iff.mp head.symm))

theorem unique_word (word : IsWord base) : IsWord (unique base taken) :=
  ⟨unique_some base taken word.1, unique_consists base taken _
    (fun c digit => by simp [Char.isAlphanum, digit]) word.2⟩

theorem unique_name (isName : IsName base) : IsName (unique base taken) :=
  ⟨unique_some base taken isName.1, unique_consists base taken _
    (fun c digit => by simp [Char.isAlphanum, digit]) isName.2⟩

theorem unique_identifier_iff (isName : IsName base) :
    IsIdentifier (unique base taken) ↔ startsWithDigit base = false := by
  rw [IsIdentifier, starts_with_digit, unique_head base taken isName.1, ← starts_with_digit]
  exact and_iff_right (unique_name base taken isName)

theorem unique_identifier (identifier : IsIdentifier base) : IsIdentifier (unique base taken) :=
  (unique_identifier_iff base taken identifier.1).mpr identifier.2

end Unique

theorem append_identifier (start name : String) (identifier : IsIdentifier start)
    (characters : Consists (·.isAlphanum = true) name) : IsIdentifier (start ++ name) := by
  obtain ⟨⟨some, first⟩, letter⟩ := identifier
  have more := consists_weaken _ (fun c => c.isAlphanum = true ∨ c = '_') (fun _ => .inl) name characters
  refine ⟨⟨?_, (consists_append _ _ _).mpr ⟨first, more⟩⟩, ?_⟩
  · exact fun empty => some (String.append_eq_empty_iff.mp empty).1
  · rw [starts_with_digit, append_head start name some, ← starts_with_digit, letter]

theorem guarded_identifier (start name : String) (identifier : IsIdentifier start)
    (word : IsWord name) : IsIdentifier (if startsWithDigit name then start ++ name else name) := by
  by_cases digit : startsWithDigit name = true
  · rw [if_pos digit]
    exact append_identifier start name identifier word.2
  · rw [if_neg digit]
    exact ⟨name_of_word name word, by simpa using digit⟩

theorem upper_camel_valid (s : List Char) (ascii : Ascii s) (some : upperCamel s ≠ []) :
    IsTypeName (String.ofList (upperCamel s)) := by
  refine ⟨⟨by simpa using some, ?_⟩, fun c isHead => ?_⟩
  · rw [Consists, String.toList_ofList]
    exact upper_camel_plain s ascii
  · rw [String.toList_ofList, upper_camel_head s ascii] at isHead
    obtain ⟨original, _, rfl⟩ := Option.map_eq_some_iff.mp isHead
    exact upper_upper original

section Members

variable (name : String) (ascii : Ascii name.toList)

include ascii

theorem type_name_valid (some : typeName name ≠ "") : IsTypeName (typeName name) := by
  refine ⟨⟨some, type_name_plain name ascii⟩, fun c isHead => ?_⟩
  rw [type_name_head name ascii] at isHead
  obtain ⟨original, _, rfl⟩ := Option.map_eq_some_iff.mp isHead
  exact upper_upper original

theorem property_name_identifier : IsIdentifier (propertyName name) := by
  unfold propertyName
  dsimp only
  split
  · decide
  · rename_i some
    refine guarded_identifier "_" _ (by decide) ⟨?_, type_name_plain name ascii⟩
    simpa [String.isEmpty_iff] using some

theorem parameter_name_identifier : IsIdentifier (parameterName name) := by
  have plain := lower_camel_plain name.toList ascii
  unfold parameterName
  dsimp only
  split
  · decide
  · rename_i some
    refine guarded_identifier "p" _ (by decide) ⟨?_, ?_⟩
    · simpa [String.isEmpty_iff] using some
    · rwa [Consists, String.toList_ofList]

end Members

end Identifiers

section Escape

theorem digit_unmarked (c : Char) (digit : c.isDigit = true) : Unmarked c := by
  constructor
  · rintro rfl
    cases digit
  · rintro rfl
    cases digit

theorem letter_unmarked (c : Char) (letter : isAlphanumeric c = true) : Unmarked c := by
  constructor
  · rintro rfl
    exact absurd letter (by decide)
  · rintro rfl
    exact absurd letter (by decide)

theorem parameter_name_unmarked (wireName : String) : Consists Unmarked (parameterName wireName) :=
  parameter_name_consists Unmarked unmarked_closed wireName (fun c _ => letter_unmarked c) (by decide)

-- Each escape adds a character that an unmarked name does not have.
theorem escape_injective (language : TargetLanguage) (name name' : String)
    (unmarked : Consists Unmarked name) (unmarked' : Consists Unmarked name')
    (same : escape language name = escape language name') : name = name' := by
  have starts (name : String) : ¬Consists Unmarked ("@" ++ name) := fun unmarked =>
    (unmarked '@' (by simp)).1 rfl
  have ends (name : String) : ¬Consists Unmarked (name ++ "_") := fun unmarked =>
    (unmarked '_' (by simp)).2 rfl
  unfold escape at same
  cases language with
  | csharp =>
      dsimp only at same
      split at same <;> split at same
      · exact (String.append_right_inj "@").mp same
      · exact absurd (same ▸ unmarked') (starts name)
      · exact absurd (same ▸ unmarked) (starts name')
      · exact same
  | typescript =>
      dsimp only at same
      split at same <;> split at same
      · exact (String.append_left_inj "_").mp same
      · exact absurd (same ▸ unmarked') (ends name)
      · exact absurd (same ▸ unmarked) (ends name')
      · exact same

end Escape

end OpenApi.Naming
