/-!
# Storage widths of integer constants

An integer constant is stored at one of three widths.  The narrowest holds the
value in the opcode byte itself, biased by 64; the other two follow the opcode
as little-endian operands.

A constant keeps the width it was declared with, so the same value at two
widths makes two different constants.  Whether a value fits is a property of
the pair, and a constant built by hand need not fit.
-/

namespace Rpn

/-- Where the value of an integer constant is stored. -/
inductive IntWidth
  | inline | u16 | i32
  deriving DecidableEq

namespace IntWidth

/-- Every width, narrowest first. -/
def all : List IntWidth := [.inline, .u16, .i32]

/-- The name of the width in messages. -/
def name : IntWidth -> String
  | inline => "inline"
  | u16 => "u16"
  | i32 => "i32"

/-- The width of a name. -/
def ofName? (name : String) : Option IntWidth :=
  all.find? (fun width => width.name == name)

/-- The least value that the width holds. -/
def low : IntWidth -> Int
  | inline => -64
  | u16 => 0
  | i32 => -2147483648

/-- The greatest value that the width holds. -/
def high : IntWidth -> Int
  | inline => 63
  | u16 => 65535
  | i32 => 2147483647

/-- The number of bytes that follow the opcode. -/
def operandSize : IntWidth -> Nat
  | inline => 0
  | u16 => 2
  | i32 => 4

/-- A width contains the values between its bounds, both included. -/
def Contains (width : IntWidth) (value : Int) : Prop :=
  width.low ≤ value ∧ value ≤ width.high

instance instDecidableContains (width : IntWidth) (value : Int) :
    Decidable (width.Contains value) :=
  inferInstanceAs (Decidable (width.low ≤ value ∧ value ≤ width.high))

/-- The width that a fresh constant of this value is given: inline if it
fits, else the signed four-byte width.  The unsigned width is never chosen. -/
def canonical? (value : Int) : Option IntWidth :=
  if inline.Contains value then some inline
  else if i32.Contains value then some i32
  else none

theorem contains_of_canonical? {value : Int} {width : IntWidth}
    (chosen : canonical? value = some width) : width.Contains value := by
  unfold canonical? at chosen
  split at chosen
  · cases chosen; assumption
  · split at chosen
    · cases chosen; assumption
    · cases chosen

end IntWidth
end Rpn
