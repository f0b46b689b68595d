import Mathlib.Tactic.Ring
import OpenApi.Proofs.Decimal.Same

set_option autoImplicit false

namespace OpenApi.Binary64

theorem compare_values (x y : Binary64) : x.compare y = Ord.compare x.value y.value := by
  have left := aligned_value x (min x.exponent y.exponent) (min_le_left _ _)
  have right := aligned_value y (min x.exponent y.exponent) (min_le_right _ _)
  have positive : (0 : ℚ) < 2 ^ min x.exponent y.exponent := zpow_pos (by norm_num) _
  rw [← left, ← right]
  change Ord.compare (α := Int) _ _ = _
  rcases lt_trichotomy (x.signed * 2 ^ (x.exponent - min x.exponent y.exponent).toNat)
    (y.signed * 2 ^ (y.exponent - min x.exponent y.exponent).toNat) with less | same | greater
  · rw [compare_lt_iff_lt.mpr (mul_lt_mul_of_pos_right (Int.cast_lt.mpr less) positive)]
    exact compare_lt_iff_lt.mpr less
  · rw [compare_eq_iff_eq.mpr (congrArg (fun n : Int => (n : ℚ) * _) same)]
    exact compare_eq_iff_eq.mpr same
  · rw [compare_gt_iff_gt.mpr (mul_lt_mul_of_pos_right (Int.cast_lt.mpr greater) positive)]
    exact compare_gt_iff_gt.mpr greater

section HalfEven

variable (den : Nat)

theorem round_multiple (positive : 0 < den) (n : Nat) : roundHalfEven (n * den) den = n := by
  rw [roundHalfEven, Nat.mul_div_cancel n positive, Nat.mul_mod_left]
  exact if_pos positive

theorem round_half_even_mono (m n : Nat) (le : m ≤ n) :
    roundHalfEven m den ≤ roundHalfEven n den := by
  have quotients : m / den ≤ n / den := Nat.div_le_div_right le
  have below : roundHalfEven m den ≤ m / den + 1 := by
    rw [roundHalfEven]
    split_ifs <;> omega
  have above : n / den ≤ roundHalfEven n den := by
    rw [roundHalfEven]
    split_ifs <;> omega
  by_cases same : m / den = n / den
  · have remainders : m % den ≤ n % den := by
      have first := Nat.div_add_mod m den
      have second := Nat.div_add_mod n den
      rw [same] at first
      omega
    rw [roundHalfEven, roundHalfEven, same]
    split_ifs <;> omega
  · omega

end HalfEven

def unit (n : Nat) : Nat := 2 ^ (n.log2 - 52)

def nearest (n : Nat) : Nat := roundHalfEven n (unit n) * unit n

theorem unit_pos (n : Nat) : 0 < unit n := Nat.two_pow_pos _

theorem nearest_small (n : Nat) (small : n ≤ 2 ^ 53) : nearest n = n := by
  rcases Nat.lt_or_ge n (2 ^ 53) with less | more
  · have short : n.log2 - 52 = 0 := by
      by_cases none : n = 0
      · subst none
        rfl
      · have := (Nat.log2_lt none).mpr less
        omega
    have exact := round_multiple 1 Nat.one_pos n
    rw [Nat.mul_one] at exact
    rw [nearest, unit, short, Nat.pow_zero, exact, Nat.mul_one]
  · obtain rfl : n = 2 ^ 53 := Nat.le_antisymm small more
    rfl

theorem power_multiple (n k : Nat) (long : n.log2 ≤ k) : ∃ q, 2 ^ k = q * unit n := by
  refine ⟨2 ^ (k - (n.log2 - 52)), ?_⟩
  rw [unit, ← Nat.pow_add]
  congr 1
  omega

-- The power of two at or below a number, and the one above it, are kept apart by rounding.
theorem nearest_between (n : Nat) (some : n ≠ 0) :
    2 ^ n.log2 ≤ nearest n ∧ nearest n ≤ 2 ^ (n.log2 + 1) := by
  have bounds (k : Nat) (long : n.log2 ≤ k) :
      (2 ^ k ≤ n → 2 ^ k ≤ nearest n) ∧ (n ≤ 2 ^ k → nearest n ≤ 2 ^ k) := by
    obtain ⟨q, isMultiple⟩ := power_multiple n k long
    have rounded := round_multiple (unit n) (unit_pos n) q
    rw [isMultiple]
    constructor
    · intro below
      have le := round_half_even_mono (unit n) _ _ below
      rw [rounded] at le
      exact Nat.mul_le_mul_right _ le
    · intro above
      have le := round_half_even_mono (unit n) _ _ above
      rw [rounded] at le
      exact Nat.mul_le_mul_right _ le
  exact ⟨(bounds n.log2 (Nat.le_refl _)).1 (Nat.log2_self_le some),
    (bounds (n.log2 + 1) (Nat.le_succ _)).2 (Nat.le_of_lt Nat.lt_log2_self)⟩

theorem nearest_mono (m n : Nat) (le : m ≤ n) : nearest m ≤ nearest n := by
  by_cases none : m = 0
  · rw [none, nearest_small 0 (by decide)]
    exact Nat.zero_le _
  · have some : n ≠ 0 := by omega
    have lengths : m.log2 ≤ n.log2 := (Nat.le_log2 some).mpr ((Nat.log2_self_le none).trans le)
    rcases Nat.lt_or_eq_of_le lengths with shorter | same
    · calc nearest m ≤ 2 ^ (m.log2 + 1) := (nearest_between m none).2
        _ ≤ 2 ^ n.log2 := Nat.pow_le_pow_right (by decide) shorter
        _ ≤ nearest n := (nearest_between n some).1
    · have units : unit m = unit n := by rw [unit, unit, same]
      rw [nearest, nearest, units]
      exact Nat.mul_le_mul_right _ (round_half_even_mono _ m n le)

section Integers

theorem exponent_of_nat (n : Nat) (some : n ≠ 0) : exponentOf n 1 = (n.log2 : Int) - 52 := by
  have guess : (n.log2 : Int) - ((1 : Nat).log2 : Int) - 52 = (n.log2 : Int) - 52 := by
    rw [show (1 : Nat).log2 = 0 from rfl]
    omega
  have low := Nat.log2_self_le some
  have long : ¬ (scaled n 1 ((n.log2 : Int) - 52)).1 / (scaled n 1 ((n.log2 : Int) - 52)).2
      < Nat.pow 2 52 := by
    rw [scaled]
    by_cases large : (0 : Int) ≤ (n.log2 : Int) - 52
    · have split : 2 ^ n.log2 = 2 ^ 52 * 2 ^ (n.log2 - 52) := by
        rw [← Nat.pow_add]
        congr 1
        omega
      have shift : ((n.log2 : Int) - 52).toNat = n.log2 - 52 := by omega
      rw [if_pos large, shift, Nat.one_mul]
      have quotient := (Nat.le_div_iff_mul_le (Nat.two_pow_pos (n.log2 - 52))).mpr (split ▸ low)
      exact Nat.not_lt.mpr quotient
    · have shift : (-((n.log2 : Int) - 52)).toNat = 52 - n.log2 := by omega
      have split : 2 ^ 52 = 2 ^ n.log2 * 2 ^ (52 - n.log2) := by
        rw [← Nat.pow_add]
        congr 1
        omega
      rw [if_neg large, shift, Nat.div_one]
      exact Nat.not_lt.mpr (split.le.trans (Nat.mul_le_mul_right _ low))
  rw [exponentOf]
  dsimp only
  rw [guess, if_neg long, minExponent]
  omega

theorem of_ratio_nearest (negative : Bool) (n : Nat) (some : n ≠ 0) (small : n.log2 ≤ 1000) :
    ∃ x, ofRatio negative n 1 = Option.some x
      ∧ x.value = (if negative then -1 else 1) * (nearest n : ℚ) := by
  have sign (m : Nat) (e : Int) : (⟨negative, m, e⟩ : Binary64).value
      = (if negative then -1 else 1) * ((m : ℚ) * 2 ^ e) := by
    rw [value, signed]
    cases negative <;> simp
  have mantissa : ((roundHalfEven (scaled n 1 ((n.log2 : Int) - 52)).1
      (scaled n 1 ((n.log2 : Int) - 52)).2 : Nat) : ℚ) * 2 ^ ((n.log2 : Int) - 52) = nearest n := by
    rw [scaled]
    by_cases large : (0 : Int) ≤ (n.log2 : Int) - 52
    · have shift : ((n.log2 : Int) - 52) = ((n.log2 - 52 : Nat) : Int) := by omega
      rw [if_pos large, Nat.one_mul, shift, Int.toNat_natCast, zpow_natCast, nearest, unit]
      push_cast
      rfl
    · have shift : ((n.log2 : Int) - 52) = -((52 - n.log2 : Nat) : Int) := by omega
      have exact := round_multiple 1 Nat.one_pos (n * 2 ^ (52 - n.log2))
      have bits : n ≤ 2 ^ 53 := by
        have below := Nat.lt_log2_self (n := n)
        have powers : 2 ^ (n.log2 + 1) ≤ 2 ^ 53 := Nat.pow_le_pow_right (by decide) (by omega)
        omega
      rw [Nat.mul_one] at exact
      rw [if_neg large, shift, neg_neg, Int.toNat_natCast, nearest_small n bits]
      change ((roundHalfEven (n * 2 ^ (52 - n.log2)) 1 : Nat) : ℚ) * _ = _
      rw [exact, zpow_neg, zpow_natCast]
      push_cast
      field_simp
  rw [ofRatio, if_neg (by simp [some]), exponent_of_nat n some]
  dsimp only
  generalize roundHalfEven (scaled n 1 ((n.log2 : Int) - 52)).1
    (scaled n 1 ((n.log2 : Int) - 52)).2 = m at mantissa ⊢
  by_cases carries : m = Nat.pow 2 53
  · have fits : ¬ maxExponent < (n.log2 : Int) - 52 + 1 := by
      rw [maxExponent]
      omega
    refine ⟨⟨negative, Nat.pow 2 52, (n.log2 : Int) - 52 + 1⟩, ?_, ?_⟩
    · rw [if_pos carries]
      exact if_neg fits
    · have carried : ((Nat.pow 2 53 : Nat) : ℚ) = (Nat.pow 2 52 : Nat) * 2 ^ (1 : Int) := by norm_num
      rw [sign, ← mantissa, carries, zpow_add₀ (by norm_num), carried]
      ring
  · have fits : ¬ maxExponent < (n.log2 : Int) - 52 := by
      rw [maxExponent]
      omega
    refine ⟨⟨negative, m, (n.log2 : Int) - 52⟩, ?_, ?_⟩
    · rw [if_neg carries]
      exact if_neg fits
    · rw [sign, mantissa]

-- The integers that a JSON number can be without being a double.
def InRange (n : Int) : Prop := Number.minInt ≤ n ∧ n ≤ Number.maxInt

theorem range_log (n : Int) (inRange : InRange n) : n.natAbs.log2 ≤ 1000 := by
  have bits : n.natAbs < 2 ^ 64 := by
    have low : -2 ^ 63 ≤ n := inRange.1
    have high : n ≤ 2 ^ 64 - 1 := inRange.2
    omega
  by_cases none : n.natAbs = 0
  · rw [none]
    decide
  · have := (Nat.log2_lt none).mpr bits
    omega

theorem of_int_value (n : Int) (inRange : InRange n) :
    (ofInt n).value = if n < 0 then -(nearest n.natAbs : ℚ) else nearest n.natAbs := by
  by_cases none : n = 0
  · subst none
    rw [nearest_small _ (by decide)]
    simp [ofInt, ofRatio, zero, value, signed]
  · obtain ⟨x, made, isValue⟩ :=
      of_ratio_nearest (decide (n < 0)) n.natAbs (by omega) (range_log n inRange)
    rw [ofInt, made, Option.getD_some, isValue]
    by_cases below : n < 0 <;> simp [below]

theorem of_int_mono (m n : Int) (inRange : InRange m) (inRange' : InRange n) (le : m ≤ n) :
    (ofInt m).value ≤ (ofInt n).value := by
  rw [of_int_value m inRange, of_int_value n inRange']
  have order (a b : Nat) (le : a ≤ b) : (nearest a : ℚ) ≤ nearest b :=
    Nat.cast_le.mpr (nearest_mono a b le)
  have least (a : Nat) : (0 : ℚ) ≤ nearest a := Nat.cast_nonneg _
  by_cases below : m < 0
  · rw [if_pos below]
    by_cases below' : n < 0
    · rw [if_pos below', neg_le_neg_iff]
      exact order _ _ (by omega)
    · rw [if_neg below']
      exact (neg_nonpos.mpr (least _)).trans (least _)
  · rw [if_neg below, if_neg (by omega)]
    exact order _ _ (by omega)

theorem of_int_small (n : Int) (small : n.natAbs ≤ 2 ^ 53) : (ofInt n).value = n := by
  have inRange : InRange n := by
    constructor <;> simp only [Number.minInt, Number.maxInt, Int.pow_eq] <;> omega
  rw [of_int_value n inRange, nearest_small _ small, Nat.cast_natAbs]
  split_ifs with below
  · rw [abs_of_neg below]
    push_cast
    ring
  · rw [abs_of_nonneg (by omega)]

theorem same_double_large (m n : Int) (inRange : InRange m) (inRange' : InRange n)
    (apart : m + 1 < n) (same : (ofInt m).value = (ofInt n).value) :
    2 ^ 53 ≤ m.natAbs ∧ 2 ^ 53 ≤ n.natAbs := by
  constructor
  · by_contra small
    have between := of_int_mono (m + 1) n ⟨by have := inRange.1; omega,
      by have := inRange'.2; omega⟩ inRange' (by omega)
    rw [← same, of_int_small m (by omega), of_int_small (m + 1) (by omega)] at between
    have := Int.cast_le.mp between
    omega
  · by_contra small
    have between := of_int_mono m (n - 1) inRange ⟨by have := inRange.1; omega,
      by have := inRange'.2; omega⟩ (by omega)
    rw [same, of_int_small n (by omega), of_int_small (n - 1) (by omega)] at between
    have := Int.cast_le.mp between
    omega

end Integers

end OpenApi.Binary64
