import Mathlib.Algebra.Order.Field.Rat
import Mathlib.Algebra.Ring.Int.Parity
import Mathlib.Tactic.FieldSimp
import Mathlib.Tactic.Positivity
import OpenApi.Json.Value

set_option autoImplicit false

namespace OpenApi

def Binary64.value (x : Binary64) : ℚ := x.signed * (2 : ℚ) ^ x.exponent

theorem aligned_value (x : Binary64) (low : Int) (bound : low ≤ x.exponent) :
    ((x.signed * 2 ^ (x.exponent - low).toNat : Int) : ℚ) * (2 : ℚ) ^ low = x.value := by
  have shift : ((x.exponent - low).toNat : Int) = x.exponent - low := Int.toNat_of_nonneg (by omega)
  have powers : (2 : ℚ) ^ (x.exponent - low).toNat * (2 : ℚ) ^ low = (2 : ℚ) ^ x.exponent := by
    rw [← zpow_natCast, shift, ← zpow_add₀ (by norm_num), Int.sub_add_cancel]
  push_cast
  rw [mul_assoc, powers, Binary64.value]

theorem same_double_iff (x y : Binary64) : x.same y = true ↔ x.value = y.value := by
  have left := aligned_value x (min x.exponent y.exponent) (min_le_left _ _)
  have right := aligned_value y (min x.exponent y.exponent) (min_le_right _ _)
  have positive : (2 : ℚ) ^ min x.exponent y.exponent ≠ 0 := zpow_ne_zero _ (by norm_num)
  rw [Binary64.same, Binary64.compare, beq_iff_eq, compare_eq_iff_eq, ← left, ← right,
    mul_left_inj' positive, Int.cast_inj]
  exact Iff.rfl

namespace Number

theorem same_refl (a : Number) : a.same a = true := by
  cases a with
  | int n => exact beq_self_eq_true n
  | float x => exact (same_double_iff x x).mpr rfl

theorem same_symm (a b : Number) (same : a.same b = true) : b.same a = true := by
  cases a <;> cases b <;> simp_all [Number.same, same_double_iff]

theorem same_trans (a b c : Number) (first : a.same b = true) (second : b.same c = true) :
    a.same c = true := by
  cases a <;> cases b <;> cases c <;> simp_all [Number.same, same_double_iff]

end Number

end OpenApi
