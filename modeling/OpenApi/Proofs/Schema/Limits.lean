import Mathlib.Tactic.NormNum
import OpenApi.Proofs.Decimal.Rounding
import OpenApi.Schema.Constraints

set_option autoImplicit false

namespace OpenApi

open Binary64

def Number.value : Number → ℚ
  | .int n => n
  | .float x => x.value

def Number.IsInteger (n : Number) : Prop := ∃ k, n = .int k ∧ InRange k

inductive Side where
  | lower
  | upper
deriving DecidableEq, Repr

namespace Side

-- The order in which a stricter limit stands to another one.
def stricter : Side → Ordering
  | .lower => .gt
  | .upper => .lt

-- The number lies strictly on the allowed side of the limit.
def Inside : Side → ℚ → ℚ → Prop
  | .lower, limit, x => limit < x
  | .upper, limit, x => x < limit

section

variable (side : Side) (a b c : ℚ)

theorem inside_trans (first : side.Inside a b) (second : side.Inside b c) : side.Inside a c := by
  cases side with
  | lower => exact lt_trans first second
  | upper => exact lt_trans second first

theorem inside_irrefl : ¬ side.Inside a a := by
  cases side <;> exact lt_irrefl a

theorem inside_total : side.Inside a b ∨ a = b ∨ side.Inside b a := by
  cases side with
  | lower => exact lt_trichotomy a b
  | upper => exact (lt_trichotomy b a).imp_right (Or.imp_left Eq.symm)

theorem compare_stricter : Ord.compare b a = side.stricter ↔ side.Inside a b := by
  cases side with
  | lower => exact compare_gt_iff_gt
  | upper => exact compare_lt_iff_lt

theorem inside_of_compare (other : Ord.compare b a ≠ side.stricter)
    (different : Ord.compare b a ≠ .eq) : side.Inside b a := by
  obtain inside | same | inside := side.inside_total a b
  · exact absurd ((compare_stricter side a b).mpr inside) other
  · exact absurd (compare_eq_iff_eq.mpr same.symm) different
  · exact inside

end

theorem inside_of_doubles (side : Side) (m n : Int) (inRange : InRange m) (inRange' : InRange n)
    (inside : side.Inside (ofInt m).value (ofInt n).value) : side.Inside m n := by
  cases side with
  | lower =>
    refine Int.cast_lt.mpr (not_le.mp fun le => ?_)
    exact absurd inside (not_lt.mpr (of_int_mono n m inRange' inRange le))
  | upper =>
    refine Int.cast_lt.mpr (not_le.mp fun le => ?_)
    exact absurd inside (not_lt.mpr (of_int_mono m n inRange inRange' le))

end Side

section Limit

variable (side : Side) (x : Int)

def Bound.Permits (b : Bound) : Prop :=
  side.Inside b.value.value x ∨ b.exclusive = false ∧ b.value.value = x

def Validation.limit (v : Validation) : Side → Option Bound
  | .lower => v.minimum
  | .upper => v.maximum

def Validation.Permits (v : Validation) : Prop := ∀ b ∈ v.limit side, b.Permits side x

end Limit

namespace Schema

variable (s : Schema) (side : Side)

def inclusive : Side → Option Number
  | .lower => s.minimum
  | .upper => s.maximum

def exclusive : Side → Option ExclusiveBound
  | .lower => s.exclusiveMinimum
  | .upper => s.exclusiveMaximum

-- Of the four keywords each is absent, an integer or, if it is an exclusive one, a flag.
structure HasIntegerLimits : Prop where
  inclusive : ∀ side, ∀ n ∈ s.inclusive side, n.IsInteger
  exclusive : ∀ side n, s.exclusive side = some (.value n) → n.IsInteger

-- What the two keywords of a side say: a flag that is set makes the inclusive one strict.
@[mk_iff]
structure Permits (x : Int) : Prop where
  inclusive : ∀ n ∈ s.inclusive side,
    side.Inside n.value x ∨ s.exclusive side ≠ some (.flag true) ∧ n.value = x
  exclusive : ∀ n, s.exclusive side = some (.value n) → side.Inside n.value x

def Loses (x : Int) : Prop := ∃ i e : Int, s.inclusive side = some (.int i)
  ∧ s.exclusive side = some (.value (.int e)) ∧ (ofInt e).value = (ofInt i).value
  ∧ side.Inside e x ∧ side.Inside x i

theorem limit_combined : s.validation.limit side
    = combineBounds side.stricter (s.inclusive side) (s.exclusive side) := by
  cases side <;> rfl

theorem combine_integers (i e : Int) (inRange : InRange i) (inRange' : InRange e) :
    (combineBounds side.stricter (some (.int i)) (some (.value (.int e))) = some ⟨.int e, true⟩
        ∧ (side.Inside i e ∨ (ofInt e).value = (ofInt i).value))
      ∨ (combineBounds side.stricter (some (.int i)) (some (.value (.int e)))
          = some ⟨.int i, false⟩ ∧ side.Inside e i ∧ (ofInt e).value ≠ (ofInt i).value) := by
  have order : (ofInt e).compare (ofInt i) = Ord.compare (ofInt e).value (ofInt i).value :=
    compare_values _ _
  simp only [combineBounds, Number.toBinary64, order]
  by_cases stricter : Ord.compare (ofInt e).value (ofInt i).value = side.stricter
  · have inside := side.inside_of_doubles i e inRange inRange'
      ((side.compare_stricter _ _).mp stricter)
    exact .inl ⟨if_pos (.inl stricter), .inl inside⟩
  · by_cases same : Ord.compare (ofInt e).value (ofInt i).value = .eq
    · exact .inl ⟨if_pos (.inr same), .inr (compare_eq_iff_eq.mp same)⟩
    · have inside := side.inside_of_doubles e i inRange' inRange
        (side.inside_of_compare _ _ stricter same)
      exact .inr ⟨if_neg (not_or.mpr ⟨stricter, same⟩), inside, mt compare_eq_iff_eq.mpr same⟩

section Integers

variable (i e x : Int) (inc : s.inclusive side = some (.int i))
  (exc : s.exclusive side = some (.value (.int e)))

include inc exc

theorem permits_integers :
    s.Permits side x ↔ (side.Inside i x ∨ (i : ℚ) = x) ∧ side.Inside e x := by
  simp [permits_iff, inc, exc, Number.value]

theorem loses_integers : s.Loses side x
    ↔ (ofInt e).value = (ofInt i).value ∧ side.Inside e x ∧ side.Inside x i := by
  simp [Loses, inc, exc]

theorem limit_integers (inRange : InRange i) (inRange' : InRange e) :
    s.validation.Permits side x ↔ s.Permits side x ∨ s.Loses side x := by
  rw [Validation.Permits, limit_combined, inc, exc, permits_integers s side i e x inc exc,
    loses_integers s side i e x inc exc]
  obtain ⟨combined, taken⟩ | ⟨combined, inside, different⟩ :=
    combine_integers side i e inRange inRange'
  · have bound : (∀ b ∈ some (Bound.mk (.int e) true), b.Permits side x) ↔ side.Inside e x := by
      simp [Bound.Permits, Number.value]
    rw [combined, bound]
    constructor
    · intro beyond
      obtain stricter | same := taken
      · exact .inl ⟨.inl (side.inside_trans _ _ _ stricter beyond), beyond⟩
      · obtain inside | equal | outside := side.inside_total i x
        · exact .inl ⟨.inl inside, beyond⟩
        · exact .inl ⟨.inr equal, beyond⟩
        · exact .inr ⟨same, beyond, outside⟩
    · rintro (⟨-, beyond⟩ | ⟨-, beyond, -⟩) <;> exact beyond
  · have bound : (∀ b ∈ some (Bound.mk (.int i) false), b.Permits side x)
        ↔ side.Inside i x ∨ (i : ℚ) = x := by
      simp [Bound.Permits, Number.value]
    rw [combined, bound]
    constructor
    · intro admitted
      refine .inl ⟨admitted, ?_⟩
      obtain beyond | equal := admitted
      · exact side.inside_trans _ _ _ inside beyond
      · exact equal ▸ inside
    · rintro (⟨admitted, -⟩ | ⟨same, -⟩)
      · exact admitted
      · exact absurd same different

end Integers

theorem loses_forbids (x : Int) (loses : s.Loses side x) : ¬ s.Permits side x := by
  obtain ⟨i, e, inc, exc, -, -, outside⟩ := loses
  rw [permits_integers s side i e x inc exc]
  rintro ⟨beyond | equal, -⟩
  · exact side.inside_irrefl _ (side.inside_trans _ _ _ outside beyond)
  · exact side.inside_irrefl _ (equal ▸ outside)

section

variable (integers : s.HasIntegerLimits)

include integers

theorem loses_large (x : Int) (loses : s.Loses side x) :
    ∃ i e : Int, s.inclusive side = some (.int i) ∧ s.exclusive side = some (.value (.int e))
      ∧ 2 ^ 53 ≤ i.natAbs ∧ 2 ^ 53 ≤ e.natAbs := by
  obtain ⟨i, e, inc, exc, same, beyond, outside⟩ := loses
  obtain ⟨_, ⟨⟩, inRange⟩ := integers.inclusive side _ inc
  obtain ⟨_, ⟨⟩, inRange'⟩ := integers.exclusive side _ exc
  cases side with
  | lower =>
    have first : e < x := Int.cast_lt.mp beyond
    have second : x < i := Int.cast_lt.mp outside
    obtain ⟨large, large'⟩ := same_double_large e i inRange' inRange (by omega) same
    exact ⟨i, e, inc, exc, large', large⟩
  | upper =>
    have first : x < e := Int.cast_lt.mp beyond
    have second : i < x := Int.cast_lt.mp outside
    obtain ⟨large, large'⟩ := same_double_large i e inRange inRange' (by omega) same.symm
    exact ⟨i, e, inc, exc, large, large'⟩

theorem limit_permits (x : Int) :
    s.validation.Permits side x ↔ s.Permits side x ∨ s.Loses side x := by
  cases inc : s.inclusive side with
  | none =>
    rw [Validation.Permits, limit_combined, permits_iff, Loses, inc]
    cases exc : s.exclusive side with
    | none => simp [combineBounds]
    | some bound => cases bound <;> simp [combineBounds, Bound.Permits]
  | some n =>
    obtain ⟨i, rfl, inRange⟩ := integers.inclusive side n inc
    cases exc : s.exclusive side with
    | none =>
      rw [Validation.Permits, limit_combined, permits_iff, Loses, inc, exc]
      simp [combineBounds, Bound.Permits, Number.value]
    | some bound =>
      cases bound with
      | flag strict =>
        rw [Validation.Permits, limit_combined, permits_iff, Loses, inc, exc]
        cases strict <;> simp [combineBounds, Bound.Permits, Number.value]
      | value m =>
        obtain ⟨e, rfl, inRange'⟩ := integers.exclusive side m exc
        exact limit_integers s side i e x inc exc inRange inRange'

/-- With keywords that are absent, integers or, for the exclusive ones, flags, the limits of a
schema allow every integer that the keywords allow. On each side they allow no other one, except what
the inclusive keyword loses: what it forbids, when the exclusive keyword allows it and has the same
double. That happens between integers beyond 53 bits only, and where neither side loses an integer,
the limits together mean what all keywords mean. -/
theorem integer_limits (x : Int) :
    (∀ side, (s.validation.Permits side x ↔ s.Permits side x ∨ s.Loses side x)
      ∧ (s.Loses side x → ¬ s.Permits side x ∧ ∃ i e : Int, s.inclusive side = some (.int i)
        ∧ s.exclusive side = some (.value (.int e)) ∧ 2 ^ 53 ≤ i.natAbs ∧ 2 ^ 53 ≤ e.natAbs))
    ∧ ((∀ side, s.Permits side x) → ∀ side, s.validation.Permits side x)
    ∧ ((∀ side, ¬ s.Loses side x)
      → ((∀ side, s.validation.Permits side x) ↔ ∀ side, s.Permits side x)) := by
  have limits (side : Side) := limit_permits s side integers x
  refine ⟨fun side => ⟨limits side, fun loses => ?_⟩, fun permits side => ?_, fun keeps => ?_⟩
  · exact ⟨loses_forbids s side x loses, loses_large s side integers x loses⟩
  · exact (limits side).mpr (.inl (permits side))
  · exact forall_congr' fun side => (limits side).trans (or_iff_left (keeps side))

end

def shortLimits : Schema where
  minimum := some (.int 5)
  exclusiveMinimum := some (.value (.int 7))
  maximum := some (.int 10)
  exclusiveMaximum := some (.flag true)

theorem short_limits_kept : shortLimits.HasIntegerLimits ∧ (∀ side x, ¬ shortLimits.Loses side x)
    ∧ ∀ side, shortLimits.validation.Permits side 8 := by
  have integer (n : Int) (small : n.natAbs ≤ 10) : (Number.int n).IsInteger :=
    ⟨n, rfl, by simp only [Number.minInt, Int.pow_eq]; omega,
      by simp only [Number.maxInt, Int.pow_eq]; omega⟩
  have integers : shortLimits.HasIntegerLimits := by
    constructor
    · rintro (_ | _) n ⟨⟩ <;> exact integer _ (by decide)
    · rintro (_ | _) n ⟨⟩
      exact integer _ (by decide)
  have keeps (side : Side) (x : Int) : ¬ shortLimits.Loses side x := by
    intro loses
    obtain ⟨-, i, e, inc, -, large, -⟩ :=
      ((integer_limits shortLimits integers x).1 side).2 loses
    cases side <;> cases inc <;> simp at large
  refine ⟨integers, keeps, ((integer_limits shortLimits integers 8).2.2 (keeps · 8)).mpr ?_⟩
  rintro (_ | _)
  · refine ⟨?_, ?_⟩ <;> rintro n ⟨⟩
    · exact .inl (by norm_num [Side.Inside, Number.value])
    · norm_num [Side.Inside, Number.value]
  · refine ⟨?_, ?_⟩ <;> rintro n ⟨⟩
    exact .inl (by norm_num [Side.Inside, Number.value])

-- Both integers have the double of the integer between them.
def longLimits : Schema where
  minimum := some (.int 9007199254740997)
  exclusiveMinimum := some (.value (.int 9007199254740995))

theorem long_limit_lost : longLimits.HasIntegerLimits
    ∧ longLimits.validation.minimum = some ⟨.int 9007199254740995, true⟩
    ∧ (∀ side, longLimits.validation.Permits side 9007199254740996)
    ∧ ¬ ∀ side, longLimits.Permits side 9007199254740996 := by
  have minimum : longLimits.validation.minimum = some ⟨.int 9007199254740995, true⟩ := by
    decide +kernel
  refine ⟨⟨?_, ?_⟩, minimum, ?_, fun permits => ?_⟩
  · rintro (_ | _) n ⟨⟩
    exact ⟨_, rfl, by decide, by decide⟩
  · rintro (_ | _) n ⟨⟩
    exact ⟨_, rfl, by decide, by decide⟩
  · rintro (_ | _) b isLimit
    · cases minimum.symm.trans isLimit
      exact .inl (by norm_num [Side.Inside, Number.value])
    · cases isLimit
  · have forbidden := (permits .lower).inclusive _ rfl
    norm_num [Side.Inside, Number.value] at forbidden

end Schema

end OpenApi
