import Rpn.Text.Hex

/-!
# Faults of an instruction stream

A byte buffer may fail to be an instruction stream in eight ways.  The fault
says what is wrong, the error also where: for a fault in an instruction the
offset is that of its first byte.
-/

namespace Rpn

/-- What is wrong with a stream. -/
inductive StreamFault
  /-- There is not one byte. -/
  | empty
  /-- An instruction was asked for after the last byte. -/
  | unexpectedEnd
  /-- A fixed-size operand is cut off. -/
  | truncated (opcode : UInt8) (needed remaining : Nat)
  | unrecognizedOpcode (opcode : UInt8)
  | unterminatedString
  /-- The units of a string are not text. -/
  | invalidString
  /-- Bytes follow the end-marker. -/
  | trailingBytes (count : Nat)
  /-- The end-marker was required and is not there. -/
  | missingTerminator
  deriving DecidableEq

namespace StreamFault

/-- The fault in words. -/
def message : StreamFault -> String
  | empty => "empty buffer"
  | unexpectedEnd => "unexpected end of buffer"
  | truncated opcode needed remaining =>
    "opcode " ++ Hex.opcode opcode ++ s!" needs {needed} operand bytes but {remaining} remain"
  | unrecognizedOpcode opcode => "unrecognized opcode " ++ Hex.opcode opcode
  | unterminatedString => "string operand is not terminated"
  | invalidString => "string operand is not valid UTF-16"
  | trailingBytes count => s!"{count} bytes follow the end-marker"
  | missingTerminator => "missing end-marker"

end StreamFault

/-- A fault and the offset at which it was found. -/
structure StreamError where
  offset : Nat
  fault : StreamFault
  deriving DecidableEq

namespace StreamError

/-- The error in words. -/
def message (error : StreamError) : String :=
  "malformed stream at offset " ++ Hex.offset error.offset ++ ": " ++ error.fault.message

end StreamError
end Rpn
