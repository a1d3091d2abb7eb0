/-!
# Hexadecimal text

Byte buffers are written as two lower-case digits a byte.  Reading accepts
digits of either case and reports the first defect: an odd number of bytes of
text, else the first byte that is no digit.  Offsets and opcodes in messages
have forms of their own.
-/

namespace Rpn
namespace Hex

/-- The lower-case digit of a value below sixteen. -/
def digit (value : Nat) : Char :=
  Nat.digitChar value

/-- The two digits of a byte, high half first. -/
def byteDigits (byte : UInt8) : List Char :=
  [digit (byte.toNat / 16), digit (byte.toNat % 16)]

/-- The digits of a buffer. -/
def encode (bytes : List UInt8) : String :=
  String.ofList (bytes.flatMap byteDigits)

/-- The value of a digit, given as a byte of text. -/
def digitValue? (byte : UInt8) : Option Nat :=
  let code := byte.toNat
  if 48 ≤ code ∧ code ≤ 57 then some (code - 48)
  else if 65 ≤ code ∧ code ≤ 70 then some (code - 55)
  else if 97 ≤ code ∧ code ≤ 102 then some (code - 87)
  else none

/-- Why a text is not the digits of a buffer. -/
inductive DecodeError
  | oddLength
  /-- The byte at this position of the text is no digit. -/
  | invalidDigit (byte : UInt8) (position : Nat)
  deriving DecidableEq

/-- Read pairs of digits; `position` is the place of the first in the text. -/
def decodePairs (position : Nat) : List UInt8 -> Except DecodeError (List UInt8)
  | high :: low :: rest =>
    match digitValue? high, digitValue? low with
    | none, _ => .error (.invalidDigit high position)
    | _, none => .error (.invalidDigit low (position + 1))
    | some first, some second =>
      match decodePairs (position + 2) rest with
      | .error error => .error error
      | .ok bytes => .ok (UInt8.ofNat (16 * first + second) :: bytes)
  | [last] => .error (.invalidDigit last position)
  | [] => .ok []

/-- Read the bytes of a text as digits.  The length is checked before any
digit is. -/
def decode (text : List UInt8) : Except DecodeError (List UInt8) :=
  if text.length % 2 = 1 then .error .oddLength else decodePairs 0 text

/-- A number in lower-case digits without leading zeros. -/
def number (value : Nat) : String :=
  String.ofList (Nat.toDigits 16 value)

/-- An offset in a message: marked as hexadecimal, unpadded. -/
def offset (value : Nat) : String :=
  "0x" ++ number value

/-- An offset in a log line: marked as hexadecimal, at least four digits. -/
def paddedOffset (value : Nat) : String :=
  let digits := Nat.toDigits 16 value
  "0x" ++ String.ofList (List.replicate (4 - digits.length) '0' ++ digits)

/-- An opcode in a message: marked as hexadecimal, two upper-case digits. -/
def opcode (byte : UInt8) : String :=
  "0x" ++ String.ofList ((byteDigits byte).map Char.toUpper)

end Hex
end Rpn
