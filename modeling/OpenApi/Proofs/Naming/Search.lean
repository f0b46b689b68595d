import Mathlib.Data.Set.Card
import Mathlib.Order.Interval.Set.Nat
import OpenApi.Proofs.Naming.Fresh

set_option autoImplicit false

namespace OpenApi.Naming

def lastNumber : Nat := 2147483647

section Search

variable (base : String) (taken : String → Bool)

-- The first free candidate from a number on; none if the count overflows before it is reached.
def freeFrom (n : Nat) : Option String :=
  if taken (numbered base n) then
    if n < lastNumber then freeFrom (n + 1) else none
  else some (numbered base n)
termination_by lastNumber - n

def freeName : Option String := if taken base then freeFrom base taken 2 else some base

theorem free_from_eq (n k : Nat) (reached : n + k ≤ lastNumber)
    (free : taken (numbered base (n + k)) = false)
    (before : ∀ j, j < k → taken (numbered base (n + j)) = true) :
    freeFrom base taken n = some (numbered base (n + k)) := by
  induction k generalizing n with
  | zero =>
      rw [freeFrom]
      exact if_neg (by simpa using free)
  | succ k ih =>
      have here : taken (numbered base n) = true := before 0 (Nat.succ_pos k)
      have shift (j : Nat) : n + 1 + j = n + (j + 1) := by omega
      rw [freeFrom, if_pos here, if_pos (by omega), ih (n + 1) (by omega), shift]
      · rwa [shift]
      · intro j less
        rw [shift]
        exact before (j + 1) (by omega)

theorem free_from_none (n left : Nat) (last : n + left = lastNumber)
    (all : ∀ m, n ≤ m → m ≤ lastNumber → taken (numbered base m) = true) :
    freeFrom base taken n = none := by
  induction left generalizing n with
  | zero =>
      rw [freeFrom, if_pos (all n (Nat.le_refl n) (by omega)), if_neg (by omega)]
  | succ left ih =>
      rw [freeFrom, if_pos (all n (Nat.le_refl n) (by omega)), if_pos (by omega)]
      exact ih (n + 1) (by omega) fun m more => all m (by omega)

theorem free_from_free (n : Nat) (name : String) (found : name ∈ freeFrom base taken n) :
    taken name = false := by
  induction n using freeFrom.induct base taken with
  | case1 n isTaken less ih =>
      rw [freeFrom, if_pos isTaken, if_pos less] at found
      exact ih found
  | case2 n isTaken last =>
      rw [freeFrom, if_pos isTaken, if_neg last] at found
      cases found
  | case3 n free =>
      rw [freeFrom, if_neg free] at found
      cases found
      exact Bool.eq_false_iff.mpr free

theorem free_name_free (name : String) (found : name ∈ freeName base taken) :
    taken name = false := by
  rw [freeName] at found
  split at found
  · exact free_from_free base taken 2 name found
  · rename_i free
    cases found
    exact Bool.eq_false_iff.mpr free

theorem free_name_least (isTaken : taken base = true) (n : Nat)
    (least : IsLeast {m | 2 ≤ m ∧ taken (numbered base m) = false} n) :
    freeName base taken = if n ≤ lastNumber then some (numbered base n) else none := by
  obtain ⟨⟨atLeast, free⟩, minimal⟩ := least
  have before (m : Nat) (more : 2 ≤ m) (less : m < n) : taken (numbered base m) = true := by
    by_contra notTaken
    have bound := minimal ⟨more, Bool.eq_false_iff.mpr notTaken⟩
    omega
  rw [freeName, if_pos isTaken]
  by_cases reached : n ≤ lastNumber
  · obtain ⟨k, rfl⟩ := Nat.exists_eq_add_of_le atLeast
    rw [if_pos reached]
    exact free_from_eq base taken 2 k reached free fun j less => before (2 + j) (by omega) (by omega)
  · rw [if_neg reached]
    exact free_from_none base taken 2 (lastNumber - 2) rfl fun m more last =>
      before m more (by omega)

theorem free_name_none_iff (n : Nat) (isTaken : taken base = true)
    (least : IsLeast {m | 2 ≤ m ∧ taken (numbered base m) = false} n) : freeName base taken = none
      ↔ ∀ m, 2 ≤ m → m ≤ lastNumber → taken (numbered base m) = true := by
  rw [free_name_least base taken isTaken n least]
  constructor
  · intro none m more reached
    have beyond : ¬ n ≤ lastNumber := fun within => by
      rw [if_pos within] at none
      cases none
    by_contra notTaken
    have bound := least.2 ⟨more, Bool.eq_false_iff.mpr notTaken⟩
    omega
  · intro all
    refine if_neg fun within => ?_
    have isTaken := all n least.1.1 within
    rw [least.1.2] at isTaken
    cases isTaken

section Listed

variable (names : List String) (lists : ∀ name, name ∈ names ↔ taken name = true)

include lists

theorem candidate_free_iff (k : Nat) :
    taken (candidate base k) = false ↔ candidate base k ∉ names := by
  rw [lists, Bool.not_eq_true]

-- A number is one more than the index of its candidate.
theorem number_least (k : Nat) (first : FirstFree base names (k + 1)) :
    IsLeast {m | 2 ≤ m ∧ taken (numbered base m) = false} (k + 2) := by
  constructor
  · exact ⟨by omega, (candidate_free_iff base taken names lists (k + 1)).mpr first.free⟩
  · rintro m ⟨atLeast, free⟩
    obtain ⟨j, rfl⟩ : ∃ j, m = j + 2 := ⟨m - 2, by omega⟩
    have absent := (candidate_free_iff base taken names lists (j + 1)).mp free
    have later := first_free_le base names (k + 1) (j + 1) first absent
    omega

theorem free_name_candidate (k : Nat) (first : FirstFree base names k) (reached : k < lastNumber) :
    freeName base taken = some (candidate base k) := by
  cases k with
  | zero =>
      have free := (candidate_free_iff base taken names lists 0).mpr first.free
      exact if_neg (Bool.eq_false_iff.mp free)
  | succ k =>
      have isTaken : taken base = true := (lists base).mp (first.before 0 (Nat.succ_pos k))
      rw [free_name_least base taken isTaken (k + 2) (number_least base taken names lists k first)]
      exact if_pos reached

end Listed

end Search

/-- Whatever names are taken, if they are finitely many the search for a free name has the base where
that is free, and otherwise the base and the least number from two on whose candidate is free. This
number is at most one more than the count of the taken names, and the search comes to it if 32 bits
hold it; else, with the base and all the numbers in reach taken, the count overflows and there is no
name. The result is not taken, and no two numbers give the same candidate. Of fewer taken names than
the count can tell, the unique name against a list of them is the one that the search ends with. -/
theorem search_ends_first_free (base : String) (taken : String → Bool)
    (finite : {name | taken name = true}.Finite) :
    (taken base = false → freeName base taken = some base)
      ∧ (taken base = true → ∃ n, IsLeast {m | 2 ≤ m ∧ taken (numbered base m) = false} n
        ∧ n ≤ {name | taken name = true}.ncard + 1
        ∧ freeName base taken = if n ≤ lastNumber then some (numbered base n) else none)
      ∧ (freeName base taken = none ↔ taken base = true
        ∧ ∀ n, 2 ≤ n → n ≤ lastNumber → taken (numbered base n) = true)
      ∧ (∀ name, freeName base taken = some name → taken name = false)
      ∧ Function.Injective (numbered base)
      ∧ ({name | taken name = true}.ncard < lastNumber →
        ∀ names : List String, (∀ name, name ∈ names ↔ taken name = true) →
          freeName base taken = some (unique base names)) := by
  let known := finite.toFinset.toList
  have lists : ∀ name, name ∈ known ↔ taken name = true := by simp [known]
  have count : known.length = {name | taken name = true}.ncard := by
    rw [Finset.length_toList, Set.ncard_eq_toFinset_card _ finite]
  obtain ⟨k, first⟩ := first_free_exists base known
  have bound := first_free_bound base known k first
  have baseFree (free : taken base = false) : freeName base taken = some base :=
    if_neg (Bool.eq_false_iff.mp free)
  have number (isTaken : taken base = true) : ∃ n,
      IsLeast {m | 2 ≤ m ∧ taken (numbered base m) = false} n
        ∧ n ≤ {name | taken name = true}.ncard + 1 := by
    cases k with
    | zero => exact absurd ((lists base).mpr isTaken) first.free
    | succ k => exact ⟨k + 2, number_least base taken known lists k first, by omega⟩
  refine ⟨baseFree, fun isTaken => ?_, ?_, free_name_free base taken, numbered_injective base,
    fun few names listed => ?_⟩
  · obtain ⟨n, least, small⟩ := number isTaken
    exact ⟨n, least, small, free_name_least base taken isTaken n least⟩
  · cases isTaken : taken base with
    | false => simp [baseFree isTaken]
    | true =>
        obtain ⟨n, least, _⟩ := number isTaken
        rw [free_name_none_iff base taken n isTaken least]
        exact (and_iff_right rfl).symm
  · have same (name : String) : name ∈ names ↔ name ∈ known := (listed name).trans (lists name).symm
    have firstListed : FirstFree base names k :=
      ⟨(same _).not.mpr first.free, fun j less => (same _).mpr (first.before j less)⟩
    rw [unique_eq_candidate base names k firstListed]
    exact free_name_candidate base taken names listed k firstListed (by omega)

-- A base that ends in a digit itself, so that its candidates look like numbered ones of another.
def petNames : List String := ["Pet", "Pet1", "Pet12", "Pet2", "Pet14"]

theorem digit_base_search : {name | petNames.contains name = true}.Finite
    ∧ petNames.contains "Pet1" = true ∧ unique "Pet1" petNames = "Pet13"
    ∧ freeName "Pet1" petNames.contains = some "Pet13"
    ∧ IsLeast {m | 2 ≤ m ∧ petNames.contains (numbered "Pet1" m) = false} 3 := by
  have listed : ∀ name, name ∈ petNames ↔ petNames.contains name = true := by simp
  have members : {name | petNames.contains name = true} = (petNames.toFinset : Set String) := by
    ext name
    simp
  have finite : {name | petNames.contains name = true}.Finite := members ▸ Finset.finite_toSet _
  have few : {name | petNames.contains name = true}.ncard < lastNumber := by
    rw [members, Set.ncard_coe_finset]
    exact petNames.toFinset_card_le.trans_lt (by decide)
  obtain ⟨_, found, _, _, injective, chosen⟩ :=
    search_ends_first_free "Pet1" petNames.contains finite
  have result : unique "Pet1" petNames = "Pet13" := by decide
  have name : freeName "Pet1" petNames.contains = some "Pet13" :=
    (chosen few petNames listed).trans (congrArg some result)
  obtain ⟨n, least, small, isName⟩ := found (by decide)
  obtain rfl : n = 3 := by
    apply injective
    rw [if_pos (by omega), name] at isName
    exact (Option.some.inj isName).symm.trans (by decide)
  exact ⟨finite, by decide, result, name, least⟩

-- A test for the base and all of its candidates that the count reaches.
def allReached (name : String) : Bool :=
  name == "Pet" || (List.range' 2 (lastNumber - 1)).any fun n => name == numbered "Pet" n

theorem all_reached_iff (name : String) : allReached name = true
    ↔ name = "Pet" ∨ ∃ n, 2 ≤ n ∧ n ≤ lastNumber ∧ name = numbered "Pet" n := by
  have inReach (n : Nat) : n ∈ List.range' 2 (lastNumber - 1) ↔ 2 ≤ n ∧ n ≤ lastNumber := by
    rw [List.mem_range'_1, lastNumber]
    omega
  simp only [allReached, Bool.or_eq_true, beq_iff_eq, List.any_eq_true, inReach, and_assoc]

theorem number_reached (n : Nat) (atLeast : 2 ≤ n) :
    allReached (numbered "Pet" n) = true ↔ n ≤ lastNumber := by
  rw [all_reached_iff]
  constructor
  · rintro (isBase | ⟨m, _, within, same⟩)
    · exact absurd isBase (numbered_ne_base "Pet" n)
    · rwa [numbered_injective "Pet" n m same]
  · exact fun within => .inr ⟨n, atLeast, within, rfl⟩

/-- There is no name where all candidates with a number in reach are taken, though the next one is
free. -/
theorem count_overflows : {name | allReached name = true}.Finite ∧ allReached "Pet" = true
    ∧ IsLeast {m | 2 ≤ m ∧ allReached (numbered "Pet" m) = false} 2147483648
    ∧ freeName "Pet" allReached = none := by
  have base : allReached "Pet" = true := (all_reached_iff "Pet").mpr (.inl rfl)
  have beyond : ¬ 2147483648 ≤ lastNumber := by
    rw [lastNumber]
    omega
  have least : IsLeast {m | 2 ≤ m ∧ allReached (numbered "Pet" m) = false} 2147483648 := by
    constructor
    · have free := (number_reached 2147483648 (by omega)).not.mpr beyond
      exact ⟨by omega, Bool.eq_false_iff.mpr free⟩
    · rintro m ⟨atLeast, free⟩
      by_contra less
      have within : m ≤ lastNumber := by
        rw [lastNumber]
        omega
      exact Bool.eq_false_iff.mp free ((number_reached m atLeast).mpr within)
  refine ⟨?_, base, least, ?_⟩
  · refine (((Set.finite_Icc 2 lastNumber).image (numbered "Pet")).insert "Pet").subset ?_
    intro name taken
    rcases (all_reached_iff name).mp taken with isBase | ⟨n, atLeast, within, isNumber⟩
    · exact .inl isBase
    · exact .inr ⟨n, ⟨atLeast, within⟩, isNumber.symm⟩
  · rw [free_name_least "Pet" allReached base _ least]
    exact if_neg beyond

end OpenApi.Naming
