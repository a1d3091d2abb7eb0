import Rpn.IntWidth
import Rpn.Decimal.Binary

/-!
# Constants

A literal value with the storage it was declared with.  Floats are kept as
their bits, so two constants are equal exactly when they are stored alike: a
NaN equals itself, and the two zeros differ.
-/

namespace Rpn

/-- A literal value.  An integer need not fit its width; such a constant can
be shown but not encoded. -/
inductive Constant
  | int (value : Int) (width : IntWidth)
  | float32 (bits : UInt32)
  | float64 (bits : UInt64)
  | string (text : String)
  deriving DecidableEq

namespace Constant

/-- An integer at its canonical width.  A value that no width holds is given
the widest one, and is refused when it is encoded. -/
def ofInt (value : Int) : Constant :=
  .int value ((IntWidth.canonical? value).getD .i32)

/-- The value of an integer constant. -/
def int? : Constant -> Option Int
  | int value _ => some value
  | _ => none

/-- The value of a float constant. -/
def floatValue? : Constant -> Option FloatValue
  | float32 bits => some (FloatFormat.single.value bits.toNat)
  | float64 bits => some (FloatFormat.double.value bits.toNat)
  | _ => none

/-- The bits of a float constant in the eight-byte format. -/
def double? : Constant -> Option UInt64
  | float32 bits => some (FloatFormat.single.value bits.toNat).doubleBits
  | float64 bits => some bits
  | _ => none

/-- Whether the literal text begins with a minus sign. -/
def isNegative : Constant -> Bool
  | int value _ => decide (value < 0)
  | float32 bits => (FloatFormat.single.value bits.toNat).isNegative
  | float64 bits => (FloatFormat.double.value bits.toNat).isNegative
  | string _ => false

end Constant
end Rpn
