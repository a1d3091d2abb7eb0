import Rpn.Decimal.Binary

/-!
# The shortest decimal of a float

Every finite float stands for an interval: the reals that round to it.  Its
decimal text is a number of that interval with as few digits as possible, and
among those one closest to the float itself.

A number with fewer digits is a multiple of a larger power of ten.  So the
search goes down through the powers of ten and stops at the first one that has
a multiple in the interval.  If one has, then one of the two multiples next to
the float has, since the interval has no gaps.  The arithmetic is exact.
-/

namespace Rpn

-- `^` is the built-in power of numbers here, also where algebra is in scope.
attribute [local instance (high)] instPowNat

/-- The decimal number `digits * 10 ^ exponent`. -/
structure Decimal where
  digits : Nat
  exponent : Int
  deriving DecidableEq

/-- The reals that round to a float, in units of `2 ^ scale`.  The ends belong
to the interval when ties round to this float, that is when its mantissa is
even. -/
structure RoundingInterval where
  low : Nat
  value : Nat
  high : Nat
  scale : Int
  closed : Bool

namespace RoundingInterval

/-- The interval of a finite value.  The mantissa without fraction bits stands
directly above a power of two, where the floats below lie twice as dense. -/
def ofFinite (format : FloatFormat) (mantissa : Nat) (exponent : Int) : RoundingInterval :=
  let closed := mantissa % 2 == 0
  if mantissa = 2 ^ format.fractionBits then
    ⟨4 * mantissa - 1, 4 * mantissa, 4 * mantissa + 2, exponent - 2, closed⟩
  else
    ⟨2 * mantissa - 1, 2 * mantissa, 2 * mantissa + 1, exponent - 1, closed⟩

/-- The size of one unit in multiples of `10 ^ exponent`, as a fraction. -/
def unit (interval : RoundingInterval) (exponent : Int) : Nat × Nat :=
  (2 ^ interval.scale.toNat * 10 ^ (-exponent).toNat,
    2 ^ (-interval.scale).toNat * 10 ^ exponent.toNat)

/-- Whether `count * 10 ^ exponent` lies in the interval. -/
def holds (interval : RoundingInterval) (exponent : Int) (count : Nat) : Bool :=
  let (numerator, denominator) := interval.unit exponent
  let point := count * denominator
  let low := interval.low * numerator
  let high := interval.high * numerator
  if interval.closed then decide (low ≤ point ∧ point ≤ high)
  else decide (low < point ∧ point < high)

/-- The multiple of `10 ^ exponent` in the interval that is closest to the
float, if any is in the interval.  A tie goes to the greater one. -/
def closest? (interval : RoundingInterval) (exponent : Int) : Option Nat :=
  let (numerator, denominator) := interval.unit exponent
  let below := interval.value * numerator / denominator
  let excess := interval.value * numerator % denominator
  if excess = 0 then some below
  else
    match interval.holds exponent below, interval.holds exponent (below + 1) with
    | true, true => if 2 * excess < denominator then some below else some (below + 1)
    | true, false => some below
    | false, true => some (below + 1)
    | false, false => none

/-- A power of ten above the whole interval.  The binary length of the upper
end bounds it, at 30103 decimal digits for 100000 binary ones. -/
def ceiling (interval : RoundingInterval) : Int :=
  (interval.scale + interval.high.log2 + 1) * 30103 / 100000 + 1

/-- The shortest decimal.  No float has more than 17 digits, and the ceiling
is at most three powers too high, so 24 powers are enough. -/
def shortest (interval : RoundingInterval) : Decimal :=
  let search := (List.range 24).findSome? fun (step : Nat) =>
    let exponent := interval.ceiling - Int.ofNat step
    (interval.closest? exponent).map fun digits => Decimal.mk digits exponent
  search.getD ⟨0, 0⟩

end RoundingInterval

namespace Decimal

/-- The shortest decimal of a finite value of a format.  Zero is written with
one digit. -/
def ofFinite (format : FloatFormat) (mantissa : Nat) (exponent : Int) : Decimal :=
  if mantissa = 0 then ⟨0, 0⟩
  else (RoundingInterval.ofFinite format mantissa exponent).shortest

end Decimal
end Rpn
