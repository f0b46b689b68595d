import OpenApi.Http.Status
import OpenApi.Proofs.Json.Assoc
import OpenApi.Proofs.Naming.Identifier

set_option autoImplicit false

namespace OpenApi

namespace Json

theorem digit_char (c : Char) (digit : c.isDigit = true) :
    digitValue c < 10 ∧ Nat.digitChar (digitValue c) = c := by
  have range : 48 ≤ c.toNat ∧ c.toNat ≤ 57 := by
    simpa [Char.isDigit, UInt32.le_iff_toNat_le] using digit
  have small : digitValue c < 10 := by
    rw [digitValue]
    have zero : '0'.toNat = 48 := rfl
    omega
  refine ⟨small, ?_⟩
  apply Char.toNat_inj.mp
  rw [Nat.toNat_digitChar_of_lt_ten small, digitValue]
  have zero : '0'.toNat = 48 := rfl
  omega

theorem digits_after (cs : List Char) (digits : ∀ c ∈ cs, c.isDigit = true) (n : Nat)
    (positive : 0 < n) : Nat.toDigits 10 (cs.foldl (fun n c => 10 * n + digitValue c) n)
      = Nat.toDigits 10 n ++ cs := by
  induction cs generalizing n with
  | nil => simp
  | cons c rest ih =>
      rw [List.forall_mem_cons] at digits
      obtain ⟨small, isChar⟩ := digit_char c digits.1
      have one := Nat.toDigits_append_toDigits (by decide : 1 < 10) positive small
      rw [Nat.toDigits_of_lt_base small, isChar] at one
      rw [List.foldl_cons, ih digits.2 _ (by omega), ← one, List.append_assoc,
        List.singleton_append]

theorem digits_of_value (cs : List Char) (digits : ∀ c ∈ cs, c.isDigit = true)
    (positive : 0 < decimalValue cs) :
    Nat.toDigits 10 (decimalValue cs) = cs.dropWhile (· == '0') := by
  induction cs with
  | nil => cases positive
  | cons c rest ih =>
      rw [List.forall_mem_cons] at digits
      obtain ⟨small, isChar⟩ := digit_char c digits.1
      by_cases zero : c = '0'
      · subst zero
        exact ih digits.2 positive
      · have leading : 0 < digitValue c := by
          refine Nat.pos_of_ne_zero fun none => zero ?_
          rw [← isChar, none]
          rfl
        have read : decimalValue (c :: rest)
            = rest.foldl (fun n c => 10 * n + digitValue c) (digitValue c) := by
          simp [decimalValue]
        rw [read, digits_after rest digits.2 _ leading, Nat.toDigits_of_lt_base small, isChar]
        simp [zero]

end Json

namespace StatusCode

def spelling : StatusCode → List Char
  | .code value => Nat.toDigits 10 value
  | .range firstDigit => Nat.toDigits 10 firstDigit ++ ['x', 'x']
  | .default => ['d', 'e', 'f', 'a', 'u', 'l', 't']

-- A key without the blanks around it and without leading zeros, in lower case.
def folded (key : String) : List Char :=
  (Text.asciiLower (Text.trim key.toList)).dropWhile (· == '0')

def isStatus (key : String) : Bool := (parse? key).isSome

def text : StatusCode → String
  | .code value => natText value
  | .range firstDigit => natText firstDigit ++ "XX"
  | .default => "default"

theorem digits_lower (cs : List Char) (digits : ∀ c ∈ cs, c.isDigit = true) :
    Text.asciiLower cs = cs :=
  (List.map_congr_left fun c member => Text.lower_digit c (digits c member)).trans (List.map_id cs)

theorem class_digit (d : Char) (low : '1' ≤ d) (high : d ≤ '5') :
    d.isDigit = true ∧ (d == '0') = false := by
  have lower : 49 ≤ d.toNat := low
  have upper : d.toNat ≤ 53 := high
  constructor
  · have range : 48 ≤ d.toNat ∧ d.toNat ≤ 57 := by omega
    simpa [Char.isDigit, UInt32.le_iff_toNat_le] using range
  · refine beq_eq_false_iff_ne.mpr fun zero => ?_
    subst zero
    exact absurd lower (by decide)

theorem folded_status (key : String) (status : StatusCode) (parsed : parse? key = some status) :
    folded key = status.spelling := by
  rw [parse?] at parsed
  rw [folded]
  generalize Text.trim key.toList = trimmed at parsed
  dsimp only at parsed
  split at parsed
  · rename_i isDefault
    cases parsed
    rw [beq_iff_eq.mp isDefault]
    rfl
  · split at parsed
    · rename_i isNumber
      split at parsed
      · rename_i inRange
        cases parsed
        rw [Bool.and_eq_true, List.all_eq_true] at isNumber
        have positive : 0 < Json.decimalValue trimmed := by omega
        rw [digits_lower trimmed isNumber.2, spelling,
          Json.digits_of_value trimmed isNumber.2 positive]
      · cases parsed
    · split at parsed
      · rename_i d x y _ _
        split at parsed
        · rename_i isRange
          cases parsed
          obtain ⟨xLower, yLower, low, high⟩ := isRange
          obtain ⟨digit, noZero⟩ := class_digit d low high
          obtain ⟨small, isChar⟩ := Json.digit_char d digit
          have lowered : Text.asciiLower [d, x, y] = [d, 'x', 'x'] := by
            rw [Text.asciiLower, List.map_cons, List.map_cons, List.map_cons, List.map_nil,
              Text.lower_digit d digit, xLower, yLower]
          rw [lowered, spelling, Nat.toDigits_of_lt_base small, isChar, List.dropWhile_cons, noZero]
          rfl
        · cases parsed
      · cases parsed

section Injective

theorem digits_only (n : Nat) : ∀ c ∈ Nat.toDigits 10 n, c.isDigit = true :=
  fun _ => Nat.isDigit_of_mem_toDigits (by decide) (by decide)

theorem digits_injective (a b : Nat) (same : Nat.toDigits 10 a = Nat.toDigits 10 b) : a = b :=
  Naming.nat_text_injective a b (congrArg String.ofList same)

theorem mem_spelling_range (status : StatusCode) :
    'x' ∈ status.spelling ↔ ∃ firstDigit, status = .range firstDigit := by
  cases status with
  | code value =>
      have noDigit : 'x' ∉ Nat.toDigits 10 value := fun member =>
        absurd (digits_only value 'x' member) (by decide)
      simp [spelling, noDigit]
  | range firstDigit => simp [spelling]
  | default => simp [spelling]

theorem mem_spelling_default (status : StatusCode) :
    'd' ∈ status.spelling ↔ status = .default := by
  have noDigit (n : Nat) : 'd' ∉ Nat.toDigits 10 n := fun member =>
    absurd (digits_only n 'd' member) (by decide)
  cases status with
  | code value => simp [spelling, noDigit]
  | range firstDigit => simp [spelling, noDigit]
  | default => simp [spelling]

theorem spelling_injective : Function.Injective spelling := by
  intro a b same
  have range := mem_spelling_range b
  have isDefault := mem_spelling_default b
  rw [← same, mem_spelling_range] at range
  rw [← same, mem_spelling_default] at isDefault
  cases a with
  | code value =>
      cases b with
      | code other => rw [digits_injective value other same]
      | range firstDigit => simp at range
      | default => simp at isDefault
  | range firstDigit =>
      obtain ⟨otherDigit, rfl⟩ := range.mp ⟨firstDigit, rfl⟩
      rw [digits_injective firstDigit otherDigit (List.append_cancel_right same)]
  | default => exact (isDefault.mp rfl).symm

def spellingOfName (name : String) : List Char :=
  match reasonNames.find? (·.2 == name) with
  | some (value, _) => Nat.toDigits 10 value
  | none => if name = "Default" then spelling .default else Text.asciiLower (name.toList.drop 6)

theorem numbered_status (more : String) :
    spellingOfName ("Status" ++ more) = Text.asciiLower more.toList := by
  have noReason : ∀ reason ∈ reasonNames, ¬ "Status".toList <+: reason.2.toList := by decide
  have starts : "Status".toList <+: ("Status" ++ more).toList := by simp
  have missing : reasonNames.find? (·.2 == "Status" ++ more) = none := by
    refine List.find?_eq_none.mpr fun reason member same => noReason reason member ?_
    rw [beq_iff_eq.mp same]
    exact starts
  have noDefault : "Status" ++ more ≠ "Default" := by
    intro same
    rw [same] at starts
    exact absurd starts (by decide)
  rw [spellingOfName, missing]
  dsimp only
  rw [if_neg noDefault, String.toList_append]
  rfl

theorem spelling_of_name (status : StatusCode) :
    spellingOfName status.caseName = status.spelling := by
  have found : ∀ reason ∈ reasonNames, reasonNames.find? (·.2 == reason.2) = some reason := by
    decide
  cases status with
  | code value =>
      rw [caseName]
      cases isNamed : reasonNames.lookup value with
      | some name =>
          dsimp only
          rw [spellingOfName, found (value, name) (Assoc.mem_of_lookup _ _ _ isNamed)]
          rfl
      | none =>
          dsimp only
          rw [numbered_status, natText, String.toList_ofList, digits_lower _ (digits_only value)]
          rfl
  | range firstDigit =>
      have lower := digits_lower _ (digits_only firstDigit)
      rw [Text.asciiLower] at lower
      rw [caseName, String.append_assoc, numbered_status]
      simp [natText, spelling, Text.asciiLower, lower]
  | default => decide

theorem case_name_injective : Function.Injective caseName := by
  intro a b same
  apply spelling_injective
  rw [← spelling_of_name, same, spelling_of_name]

end Injective

section Keys

variable (keys : List String)

theorem statuses_spelled : (keys.filterMap parse?).map spelling
    = (keys.filter isStatus).map folded := by
  induction keys with
  | nil => rfl
  | cons key rest ih =>
      rw [List.filterMap_cons, List.filter_cons, isStatus]
      cases parsed : parse? key with
      | none => exact ih
      | some status =>
          rw [List.map_cons, ih, ← folded_status key status parsed]
          rfl

theorem statuses_distinct_iff : (keys.filterMap parse?).Nodup
    ↔ ((keys.filter isStatus).map folded).Nodup := by
  rw [← statuses_spelled, List.nodup_map_iff spelling_injective]

def IsPlain (key : String) : Prop := ∀ status, parse? key = some status → key = status.text

theorem plain_distinct (distinct : keys.Nodup) (plain : ∀ key ∈ keys, IsPlain key) :
    (keys.filterMap parse?).Nodup := by
  have texts : (keys.filterMap parse?).map text = keys.filter isStatus := by
    clear distinct
    induction keys with
    | nil => rfl
    | cons key rest ih =>
        rw [List.forall_mem_cons] at plain
        rw [List.filterMap_cons, List.filter_cons, isStatus]
        cases parsed : parse? key with
        | none => exact ih plain.2
        | some status =>
            rw [List.map_cons, ih plain.2, ← plain.1 status parsed]
            rfl
  have filtered := distinct.filter isStatus
  rw [← texts] at filtered
  exact filtered.of_map

end Keys

end StatusCode

end OpenApi
