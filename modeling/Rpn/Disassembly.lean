import Rpn.Instruction.Codec
import Rpn.Instruction.Text

/-!
# Disassembly

A buffer is read as instructions, one after another, until the end-marker or
the last byte.  Each listed instruction has its place in the buffer, so that a
listing accounts for every byte.  Nothing may follow the end-marker, and an
empty buffer is no stream at all.
-/

namespace Rpn

/-- An instruction and the bytes it was read from. -/
structure ListedInstruction where
  offset : Nat
  length : Nat
  instruction : Instruction
  deriving DecidableEq

/-- The instructions from `offset` on, the buffer having been read up to
there.  The bytes of `rest` are those not yet read. -/
def disassembleFrom (offset : Nat) (rest : List UInt8) :
    Except StreamError (List ListedInstruction) :=
  if rest.isEmpty then .ok []
  else
    match _found : Instruction.read rest with
    | .error fault => .error ⟨offset, fault⟩
    | .ok reading =>
      let entry : ListedInstruction := ⟨offset, reading.length, reading.instruction⟩
      let next := offset + reading.length
      match reading.instruction with
      | .stop =>
        if reading.rest.isEmpty then .ok [entry]
        else .error ⟨next, .trailingBytes reading.rest.length⟩
      | _ =>
        match disassembleFrom next reading.rest with
        | .error error => .error error
        | .ok entries => .ok (entry :: entries)
termination_by rest.length
decreasing_by exact Instruction.rest_lt_of_read _found

/-- The listing of a buffer. -/
def disassemble (bytes : List UInt8) : Except StreamError (List ListedInstruction) :=
  if bytes.isEmpty then .error ⟨0, .empty⟩ else disassembleFrom 0 bytes

end Rpn
