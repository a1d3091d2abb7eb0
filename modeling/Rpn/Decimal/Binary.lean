/-!
# Binary floating-point values

A float constant is kept as its bits.  This module reads them: the sign, and
either a finite value `mantissa * 2 ^ exponent`, an infinity, or a NaN.  All
arithmetic is exact, on natural numbers; no float is ever computed with.
-/

namespace Rpn

-- `^` is the built-in power of numbers here, also where algebra is in scope.
attribute [local instance (high)] instPowNat

/-- The layout of a binary interchange format: a sign bit, an exponent field
and a fraction field, from the top bit down. -/
structure FloatFormat where
  exponentBits : Nat
  fractionBits : Nat

/-- What the bits of a float stand for. -/
inductive FloatValue
  | nan
  | infinite (negative : Bool)
  | finite (negative : Bool) (mantissa : Nat) (exponent : Int)

namespace FloatFormat

/-- The four-byte format. -/
def single : FloatFormat := ⟨8, 23⟩

/-- The eight-byte format. -/
def double : FloatFormat := ⟨11, 52⟩

/-- The fraction field of the bits. -/
def fraction (format : FloatFormat) (bits : Nat) : Nat :=
  bits % 2 ^ format.fractionBits

/-- The exponent field of the bits. -/
def exponentField (format : FloatFormat) (bits : Nat) : Nat :=
  bits / 2 ^ format.fractionBits % 2 ^ format.exponentBits

/-- The sign bit. -/
def signBit (format : FloatFormat) (bits : Nat) : Bool :=
  bits / 2 ^ (format.fractionBits + format.exponentBits) % 2 == 1

/-- The exponent of the last mantissa bit in the smallest normal value, shared
by all subnormal values. -/
def leastExponent (format : FloatFormat) : Int :=
  2 - 2 ^ (format.exponentBits - 1) - format.fractionBits

/-- Read the bits.  An all-ones exponent field is an infinity or a NaN, and a
zero field means that the mantissa has no hidden leading bit. -/
def value (format : FloatFormat) (bits : Nat) : FloatValue :=
  let fraction := format.fraction bits
  let field := format.exponentField bits
  let negative := format.signBit bits
  if field = 2 ^ format.exponentBits - 1 then
    if fraction = 0 then .infinite negative else .nan
  else if field = 0 then .finite negative fraction format.leastExponent
  else .finite negative (2 ^ format.fractionBits + fraction) (format.leastExponent + (field - 1))

end FloatFormat

namespace FloatValue

/-- A value counts as negative when its text begins with a minus sign.  That
includes negative zero, and no NaN whatever its sign bit. -/
def isNegative : FloatValue -> Bool
  | nan => false
  | infinite negative => negative
  | finite negative _ _ => negative

/-- The bits of the value in the eight-byte format.  Every value of the
four-byte format, subnormal ones included, is a normal value there, so nothing
is rounded.  A NaN is written as the quiet one without payload. -/
def doubleBits : FloatValue -> UInt64
  | nan => 0x7FF8000000000000
  | infinite negative => UInt64.ofNat (sign negative + 0x7FF * 2 ^ (52 : Nat))
  | finite negative mantissa exponent =>
    if mantissa = 0 then UInt64.ofNat (sign negative)
    else
      let leading := mantissa.log2
      let field := (exponent + leading + 1023).toNat
      UInt64.ofNat (sign negative + field * 2 ^ (52 : Nat) +
        (mantissa * 2 ^ (52 : Nat) / 2 ^ leading - 2 ^ (52 : Nat)))
where
  /-- The sign bit in place. -/
  sign (negative : Bool) : Nat := if negative then 2 ^ (63 : Nat) else 0

end FloatValue
end Rpn
