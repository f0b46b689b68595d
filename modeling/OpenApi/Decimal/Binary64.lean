set_option autoImplicit false

namespace OpenApi

-- The number (-1)^negative * mantissa * 2^exponent.
structure Binary64 where
  negative : Bool
  mantissa : Nat
  exponent : Int
deriving DecidableEq, Repr

namespace Binary64

def minExponent : Int := -1074

def maxExponent : Int := 971

def zero (negative : Bool) : Binary64 := ⟨negative, 0, minExponent⟩

def roundHalfEven (num den : Nat) : Nat :=
  let quotient := num / den
  let twice := 2 * (num % den)
  if twice < den then quotient
  else if den < twice then quotient + 1
  else if quotient % 2 = 0 then quotient else quotient + 1

def scaled (num den : Nat) (exponent : Int) : Nat × Nat :=
  if 0 ≤ exponent then (num, den * Nat.pow 2 exponent.toNat)
  else (num * Nat.pow 2 (-exponent).toNat, den)

def exponentOf (num den : Nat) : Int :=
  let guess := (num.log2 : Int) - den.log2 - 52
  let (n, d) := scaled num den guess
  max minExponent (if n / d < Nat.pow 2 52 then guess - 1 else guess)

def ofRatio (negative : Bool) (num den : Nat) : Option Binary64 :=
  if num = 0 ∨ den = 0 then some (zero negative)
  else
    let exponent := exponentOf num den
    let (n, d) := scaled num den exponent
    let mantissa := roundHalfEven n d
    let (mantissa, exponent) :=
      if mantissa = Nat.pow 2 53 then (Nat.pow 2 52, exponent + 1) else (mantissa, exponent)
    if maxExponent < exponent then none else some ⟨negative, mantissa, exponent⟩

-- The number nearest to `digits * 10^power`. Powers beyond the range of the numbers are decided
-- by the count of digits, so that no large power is computed.
def ofDecimal (negative : Bool) (digits : Nat) (power : Int) : Option Binary64 :=
  let magnitude := ((Nat.toDigits 10 digits).length : Int) + power
  if digits = 0 ∨ magnitude < -330 then some (zero negative)
  else if 310 < magnitude then none
  else if 0 ≤ power then ofRatio negative (digits * Nat.pow 10 power.toNat) 1
  else ofRatio negative digits (Nat.pow 10 (-power).toNat)

def ofInt (n : Int) : Binary64 :=
  (ofRatio (decide (n < 0)) n.natAbs 1).getD (zero false)

def signed (x : Binary64) : Int :=
  if x.negative then -(x.mantissa : Int) else x.mantissa

def compare (x y : Binary64) : Ordering :=
  let low := min x.exponent y.exponent
  let align := fun (z : Binary64) => z.signed * Int.pow 2 (z.exponent - low).toNat
  Ord.compare (align x) (align y)

def same (x y : Binary64) : Bool := x.compare y == .eq

def isWhole (x : Binary64) : Bool :=
  decide (0 ≤ x.exponent) || x.mantissa % Nat.pow 2 (-x.exponent).toNat == 0

end Binary64

end OpenApi
