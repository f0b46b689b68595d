import Mathlib.Data.List.Nodup
import Mathlib.Data.List.Perm.Subperm
import Mathlib.Order.Nat
import Mathlib.Data.Nat.Find
import OpenApi.Naming

set_option autoImplicit false

namespace OpenApi.Naming

def candidate (base : String) : Nat → String
  | 0 => base
  | k + 1 => numbered base (k + 2)

theorem nat_text_injective (a b : Nat) (same : natText a = natText b) : a = b := by
  have digits : Nat.toDigits 10 a = Nat.toDigits 10 b := by
    simpa [natText] using congrArg String.toList same
  rw [← Nat.ofDigitChars_ten_toDigits (n := a), digits, Nat.ofDigitChars_ten_toDigits]

theorem numbered_injective (base : String) (a b : Nat) (same : numbered base a = numbered base b) :
    a = b := by
  apply nat_text_injective
  exact String.append_right_inj base |>.mp same

theorem numbered_ne_base (base : String) (n : Nat) : numbered base n ≠ base := by
  intro same
  have empty : (natText n).toList = [] := by
    have lists := congrArg String.toList same
    simpa [numbered] using lists
  rw [natText, String.toList_ofList] at empty
  exact Nat.toDigits_ne_nil empty

theorem candidate_injective (base : String) : Function.Injective (candidate base) := by
  intro a b same
  cases a with
  | zero =>
      cases b with
      | zero => rfl
      | succ b => exact absurd same.symm (numbered_ne_base base (b + 2))
  | succ a =>
      cases b with
      | zero => exact absurd same (numbered_ne_base base (a + 2))
      | succ b =>
          have := numbered_injective base _ _ same
          omega

theorem candidates_eq_map (base : String) (count : Nat) :
    candidates base count = (List.range (count + 1)).map (candidate base) := by
  rw [candidates, List.range_succ_eq_map, List.map_cons, List.map_map, List.range'_eq_map_range,
    List.map_map]
  refine congrArg (base :: ·) (List.map_congr_left fun k _ => ?_)
  simp [candidate, Nat.add_comm]

-- The count of taken names bounds the search: more candidates than that cannot all be taken.
theorem candidate_free (base : String) (taken : List String) :
    ∃ k, k ≤ taken.length ∧ candidate base k ∉ taken := by
  by_contra none
  push Not at none
  have all : (List.range (taken.length + 1)).map (candidate base) ⊆ taken := by
    intro name member
    obtain ⟨k, bound, rfl⟩ := List.mem_map.mp member
    exact none k (Nat.lt_succ_iff.mp (List.mem_range.mp bound))
  have distinct : ((List.range (taken.length + 1)).map (candidate base)).Nodup :=
    List.nodup_range.map (candidate_injective base)
  have bound := (List.subperm_of_subset distinct all).length_le
  rw [List.length_map, List.length_range] at bound
  omega

structure FirstFree (base : String) (taken : List String) (k : Nat) : Prop where
  free : candidate base k ∉ taken
  before : ∀ j, j < k → candidate base j ∈ taken

theorem first_free_exists (base : String) (taken : List String) : ∃ k, FirstFree base taken k := by
  have some_free : ∃ k, candidate base k ∉ taken := by
    obtain ⟨k, _, free⟩ := candidate_free base taken
    exact ⟨k, free⟩
  refine ⟨Nat.find some_free, Nat.find_spec some_free, fun j less => ?_⟩
  exact not_not.mp (Nat.find_min some_free less)

theorem first_free_le (base : String) (taken : List String) (k j : Nat)
    (first : FirstFree base taken k) (free : candidate base j ∉ taken) : k ≤ j := by
  by_contra less
  exact free (first.before j (by omega))

theorem first_free_bound (base : String) (taken : List String) (k : Nat)
    (first : FirstFree base taken k) : k ≤ taken.length := by
  obtain ⟨j, bound, free⟩ := candidate_free base taken
  exact Nat.le_trans (first_free_le base taken k j first free) bound

theorem first_free_mono (base : String) (taken more : List String) (k j : Nat)
    (grown : taken ⊆ more) (first : FirstFree base taken k) (later : FirstFree base more j) :
    k ≤ j :=
  first_free_le base taken k j first fun member => later.free (grown member)

theorem first_free_search (base : String) (taken : List String) (fuel n k : Nat)
    (bound : k ≤ fuel) (free : numbered base (n + k) ∉ taken)
    (before : ∀ j, j < k → numbered base (n + j) ∈ taken) :
    firstFree base taken fuel n = numbered base (n + k) := by
  induction fuel generalizing n k with
  | zero =>
      obtain rfl : k = 0 := by omega
      rfl
  | succ fuel ih =>
      rw [firstFree]
      cases k with
      | zero => simp_all
      | succ k =>
          have here : numbered base n ∈ taken := before 0 (by omega)
          rw [if_pos (List.contains_iff_mem.mpr here)]
          rw [ih (n + 1) k (by omega)]
          · congr 1
            omega
          · rwa [Nat.add_right_comm, Nat.add_assoc]
          · intro j less
            have next := before (j + 1) (by omega)
            rwa [Nat.add_right_comm, Nat.add_assoc]

theorem unique_eq_candidate (base : String) (taken : List String) (k : Nat)
    (first : FirstFree base taken k) : unique base taken = candidate base k := by
  rw [unique]
  cases k with
  | zero => exact if_neg fun member => first.free (List.contains_iff_mem.mp member)
  | succ k =>
      have bound := first_free_bound base taken (k + 1) first
      have here : base ∈ taken := first.before 0 (by omega)
      rw [if_pos (List.contains_iff_mem.mpr here)]
      rw [first_free_search base taken taken.length 2 k (by omega)]
      · rw [candidate, Nat.add_comm]
      · rw [Nat.add_comm]
        exact first.free
      · intro j less
        rw [Nat.add_comm]
        exact first.before (j + 1) (by omega)

theorem unique_free (base : String) (taken : List String) : unique base taken ∉ taken := by
  obtain ⟨k, first⟩ := first_free_exists base taken
  rw [unique_eq_candidate base taken k first]
  exact first.free

theorem taken_candidates (base : String) (taken : List String) (k : Nat)
    (first : FirstFree base taken k) :
    (candidates base taken.length).takeWhile taken.contains
      = (List.range k).map (candidate base) := by
  have bound := first_free_bound base taken k first
  have parts : List.range (taken.length + 1)
      = List.range k ++ List.range' k (taken.length + 1 - k) := by
    have joined := List.range'_append_1 (s := 0) (m := k) (n := taken.length + 1 - k)
    rw [Nat.zero_add, Nat.add_sub_cancel' (by omega)] at joined
    rw [List.range_eq_range', List.range_eq_range', joined]
  obtain ⟨rest, count⟩ : ∃ rest, taken.length + 1 - k = rest + 1 := ⟨taken.length - k, by omega⟩
  rw [candidates_eq_map, parts, List.map_append, List.takeWhile_append_of_pos]
  · rw [count, List.range'_succ, List.map_cons, List.takeWhile_cons_of_neg, List.append_nil]
    simpa using first.free
  · intro name member
    obtain ⟨j, less, rfl⟩ := List.mem_map.mp member
    simpa using first.before j (List.mem_range.mp less)

end OpenApi.Naming
