import OpenApi.Naming
import OpenApi.Text.Words

set_option autoImplicit false

namespace OpenApi.TypeScript

section Words

-- Beyond ASCII every character but white space counts as part of a name.
def isNamePart (c : Char) : Bool :=
  c.isAlphanum || c == '_' || c == '$' || decide (128 ≤ c.toNat) && !Text.isBlank c

-- The operators on types, which are taken as such wherever a type can begin.
def operators : List String := ["infer", "keyof", "readonly", "unique"]

def isIdentifier (word : String) : Bool :=
  !word.isEmpty && word.toList.all isNamePart && !Naming.startsWithDigit word
    && !(Naming.reservedWords .typescript).contains word && !operators.contains word

def reservedTypes : List String := ["false", "null", "this", "true", "void"]

def isTypeWord (word : String) : Bool := isIdentifier word || reservedTypes.contains word

end Words

section Tokens

inductive Token where
  | word (text : String)
  | mark (c : Char)
  | spread
deriving DecidableEq, Repr

def wordToken (reversed : List Char) : List Token :=
  if reversed.isEmpty then [] else [.word (String.ofList reversed.reverse)]

-- The tokens of a text from left to right. `word` is the word so far in reverse order.
def scan (word : List Char) : List Char → List Token
  | [] => wordToken word
  | '.' :: '.' :: '.' :: rest => wordToken word ++ .spread :: scan [] rest
  | c :: rest =>
    if isNamePart c then scan (c :: word) rest
    else if Text.isBlank c then wordToken word ++ scan [] rest
    else wordToken word ++ .mark c :: scan [] rest

def tokens (text : String) : List Token := scan [] text.toList

variable (word s rest : List Char) (c : Char)

theorem scan_single (single : ∀ s, c = '.' → rest = '.' :: '.' :: s → False) :
    scan word (c :: rest) =
      if isNamePart c then scan (c :: word) rest
      else if Text.isBlank c then wordToken word ++ scan [] rest
      else wordToken word ++ .mark c :: scan [] rest := by
  rw [scan]
  exact single

theorem scan_name (parts : s.all isNamePart = true) :
    scan word (s ++ rest) = scan (s.reverse ++ word) rest := by
  induction s generalizing word with
  | nil => rfl
  | cons c s ih =>
      obtain ⟨part, others⟩ := Bool.and_eq_true_iff.mp (List.all_cons.symm.trans parts)
      have noDot : c ≠ '.' := by
        rintro rfl
        exact absurd part (by decide)
      rw [List.cons_append, scan_single _ _ c fun _ dot => absurd dot noDot, if_pos part,
        ih (c :: word) others, List.reverse_cons, List.append_assoc]
      rfl

variable (apart : isNamePart c = false) (noDot : c ≠ '.')

include noDot

theorem single_before (d : Char) (single : ∀ t, d = '.' → s = '.' :: '.' :: t → False) :
    ∀ t, d = '.' → s ++ c :: rest = '.' :: '.' :: t → False := by
  intro t dot spread
  match s with
  | [] => exact noDot (List.cons.inj spread).1
  | [_] => exact noDot (List.cons.inj (List.cons.inj spread).2).1
  | first :: second :: s =>
      simp only [List.cons_append, List.cons.injEq] at spread
      exact single s dot (by rw [spread.1, spread.2.1])

include apart

theorem scan_flushed : scan word (c :: rest) = wordToken word ++ scan [] (c :: rest) := by
  have noPart := ne_true_of_eq_false apart
  have single : ∀ s, c = '.' → rest = '.' :: '.' :: s → False := fun _ dot => absurd dot noDot
  rw [scan_single word rest c single, scan_single [] rest c single, if_neg noPart, if_neg noPart]
  split
  · rfl
  · rfl

theorem scan_apart : scan word (s ++ c :: rest) = scan word s ++ scan [] (c :: rest) := by
  fun_induction scan word s with
  | case1 word => exact scan_flushed word rest c apart noDot
  | case2 word s ih =>
      calc scan word ('.' :: '.' :: '.' :: s ++ c :: rest)
        _ = wordToken word ++ .spread :: scan [] (s ++ c :: rest) := by
          rw [List.cons_append, List.cons_append, List.cons_append, scan]
        _ = _ := by rw [ih, List.append_assoc, List.cons_append]
  | case3 word d s single part ih =>
      rw [List.cons_append, scan_single word _ d (single_before s rest c noDot d single),
        if_pos part, ih]
  | case4 word d s single noPart blank ih =>
      rw [List.cons_append, scan_single word _ d (single_before s rest c noDot d single),
        if_neg noPart, if_pos blank, ih, List.append_assoc]
  | case5 word d s single noPart noBlank ih =>
      rw [List.cons_append, scan_single word _ d (single_before s rest c noDot d single),
        if_neg noPart, if_neg noBlank, ih, List.append_assoc, List.cons_append]

end Tokens

section Texts

def startsApart : List Char → Bool
  | [] => true
  | c :: _ => !isNamePart c && c != '.'

variable (text after : String)

theorem tokens_append (apart : startsApart after.toList = true) :
    tokens (text ++ after) = tokens text ++ tokens after := by
  rw [tokens, String.toList_append, tokens, tokens]
  cases starts : after.toList with
  | nil => rw [List.append_nil, scan, wordToken, List.isEmpty_nil, if_pos rfl, List.append_nil]
  | cons c rest =>
      rw [starts, startsApart, Bool.and_eq_true, Bool.not_eq_true', bne_iff_ne] at apart
      exact scan_apart [] text.toList rest c apart.1 apart.2

section Opened

variable (opening : String) (ts : List Token)
  (opens : ∀ s, scan [] (opening.toList ++ s) = ts ++ scan [] s)

include opens

theorem tokens_opened : tokens (opening ++ text) = ts ++ tokens text := by
  rw [tokens, String.toList_append, opens text.toList, tokens]

theorem tokens_enclosed (apart : startsApart after.toList = true) :
    tokens (opening ++ text ++ after) = ts ++ (tokens text ++ tokens after) := by
  rw [tokens_append _ after apart, tokens_opened text opening ts opens, List.append_assoc]

end Opened

theorem type_word_parts (word : String) (isType : isTypeWord word = true) :
    word ≠ "" ∧ word.toList.all isNamePart = true := by
  rcases Bool.or_eq_true_iff.mp isType with isName | reserved
  · simp only [isIdentifier, Bool.and_eq_true, Bool.not_eq_true', String.isEmpty_eq_false_iff]
      at isName
    exact isName.1.1.1
  · have each : ∀ word ∈ reservedTypes, word ≠ "" ∧ word.toList.all isNamePart = true := by decide
    exact each word (List.contains_iff_mem.mp reserved)

theorem tokens_word (word : String) (isType : isTypeWord word = true) :
    tokens word = [.word word] := by
  obtain ⟨some, parts⟩ := type_word_parts word isType
  have scanned := scan_name [] word.toList [] parts
  rw [List.append_nil, List.append_nil, scan] at scanned
  rw [tokens, scanned, wordToken, if_neg, List.reverse_reverse, String.ofList_toList]
  simpa using some

end Texts

end OpenApi.TypeScript
