import OpenApi.Decimal.Binary64

set_option autoImplicit false

namespace OpenApi.Binary64

structure Fraction where
  num : Nat
  den : Nat
deriving DecidableEq, Repr

namespace Fraction

def le (x y : Fraction) : Bool := decide (x.num * y.den ≤ y.num * x.den)

def lt (x y : Fraction) : Bool := decide (x.num * y.den < y.num * x.den)

def distance (x y : Fraction) : Fraction :=
  ⟨(((x.num * y.den : Nat) : Int) - ((y.num * x.den : Nat) : Int)).natAbs, x.den * y.den⟩

def quarters (n : Nat) (power : Int) : Fraction :=
  if 0 ≤ power then ⟨n * Nat.pow 2 power.toNat, 4⟩ else ⟨n, 4 * Nat.pow 2 (-power).toNat⟩

def decimal (n : Nat) (power : Int) : Fraction :=
  if 0 ≤ power then ⟨n * Nat.pow 10 power.toNat, 1⟩ else ⟨n, Nat.pow 10 (-power).toNat⟩

end Fraction

def magnitude (x : Binary64) : Fraction := .quarters (4 * x.mantissa) x.exponent

-- The reals that round to the magnitude of the number lie between these two; the ends do so
-- exactly if the mantissa is even. Below a power of two the gap is half as wide.
def interval (x : Binary64) : Fraction × Fraction :=
  let below := if x.mantissa = Nat.pow 2 52 ∧ minExponent < x.exponent then 1 else 2
  (.quarters (4 * x.mantissa - below) x.exponent, .quarters (4 * x.mantissa + 2) x.exponent)

def readsBack (x : Binary64) (decimal : Fraction) : Bool :=
  let (low, high) := x.interval
  if x.mantissa % 2 = 0 then low.le decimal && decimal.le high
  else low.lt decimal && decimal.lt high

def decimalPoint (x : Binary64) : Int :=
  let guess := Int.fdiv (((x.mantissa.log2 : Int) + x.exponent) * 30103) 100000
  let fits := fun (k : Int) => x.magnitude.lt (.decimal 1 k)
  if fits (guess - 1) then guess - 1
  else if fits guess then guess
  else if fits (guess + 1) then guess + 1
  else guess + 2

-- The decimal with the given place value that reads back and is nearest to the number; of two
-- equally near ones the even one.
def onGrid (x : Binary64) (power : Int) : Option Nat :=
  let value := x.magnitude
  let unit := Fraction.decimal 1 power
  let lower := value.num * unit.den / (value.den * unit.num)
  let hit := fun (n : Nat) => decide (0 < n) && x.readsBack (.decimal n power)
  let gap := fun (n : Nat) => value.distance (.decimal n power)
  match hit lower, hit (lower + 1) with
  | false, false => none
  | true, false => some lower
  | false, true => some (lower + 1)
  | true, true =>
    if (gap lower).lt (gap (lower + 1)) then some lower
    else if (gap (lower + 1)).lt (gap lower) then some (lower + 1)
    else if lower % 2 = 0 then some lower else some (lower + 1)

def search (x : Binary64) (point : Int) : List Nat → Nat × Int
  | [] => (x.mantissa, x.exponent)
  | count :: rest =>
    match x.onGrid (point - count) with
    | some n => (n, point - count)
    | none => search x point rest

-- The digits of the shortest decimal without trailing zeros, and the place of the point counted
-- from the first digit: the value is 0.d1d2... * 10^place.
def shortest (x : Binary64) : List Char × Int :=
  let (n, power) := x.search x.decimalPoint (List.range' 1 17)
  let digits := Nat.toDigits 10 n
  let trimmed := (digits.reverse.dropWhile (· == '0')).reverse
  (trimmed, power + digits.length)

end OpenApi.Binary64
