import Rpn.Instruction
import Rpn.Opcode
import Rpn.Word
import Rpn.StreamError
import Rpn.Text.WideString

/-!
# The wire format of one instruction

An instruction is its opcode byte and the operand bytes that belong to it.
The encoder refuses what has no encoding; the reader takes one instruction
from the front of a buffer and says how many bytes it took.

The two are separate definitions over the one table of opcodes.  The reader
decides from the bytes up to the end of the instruction alone, so an
instruction reads the same in front of any other bytes.
-/

namespace Rpn

/-- Why an instruction has no encoding. -/
inductive EncodingError
  | outOfRange (value : Int) (width : IntWidth)
  /-- The terminator of a string occurs within it. -/
  | interiorNul
  | paramOutOfRange (slot : UInt8)
  | tooManyArguments (args : Nat)
  deriving DecidableEq

namespace EncodingError

/-- The error in words. -/
def message : EncodingError -> String
  | outOfRange value width =>
    s!"value {value} does not fit in " ++ width.name ++ " width"
  | interiorNul => "string contains an embedded NUL"
  | paramOutOfRange slot => s!"parameter slot {slot} is out of range"
  | tooManyArguments args =>
    s!"function call with {args} arguments exceeds the maximum of 6"

end EncodingError

namespace Constant

/-- The push instruction of a constant, as bytes. -/
def encode : Constant -> Except EncodingError (List UInt8)
  | int value width =>
    if width.Contains value then
      match width with
      | .inline => .ok [(Opcode.pushInline (Fin.ofNat 128 (value + 64).toNat)).toByte]
      | .u16 => .ok (Opcode.pushUInt16.toByte :: Word.bytes 2 value.toNat)
      | .i32 => .ok (Opcode.pushInt32.toByte :: Word.bytes 4 (value % 4294967296).toNat)
    else .error (.outOfRange value width)
  | float32 bits => .ok (Opcode.pushFloat32.toByte :: Word.bytes 4 bits.toNat)
  | float64 bits => .ok (Opcode.pushFloat64.toByte :: Word.bytes 8 bits.toNat)
  | string text =>
    if text.toList.contains '\x00' then .error .interiorNul
    else .ok (Opcode.pushString.toByte :: WideString.bytes text)

end Constant

namespace Instruction

/-- The bytes of an instruction. -/
def encode : Instruction -> Except EncodingError (List UInt8)
  | push constant => constant.encode
  | param slot =>
    if known : slot.toNat < 8 then .ok [(Opcode.param ⟨slot.toNat, known⟩).toByte]
    else .error (.paramOutOfRange slot)
  | unary op => .ok [(Opcode.unary op).toByte]
  | binary op => .ok [(Opcode.binary op).toByte]
  | call args =>
    if few : args < 7 then .ok [(Opcode.call ⟨args, few⟩).toByte]
    else .error (.tooManyArguments args)
  | command bank id =>
    .ok (Opcode.command.toByte :: bank :: Word.bytes 4 id.toUInt32.toNat)
  | stop => .ok [Opcode.stop.toByte]

/-- An instruction taken from the front of a buffer. -/
structure Reading where
  instruction : Instruction
  /-- The number of bytes taken. -/
  length : Nat
  /-- The bytes left. -/
  rest : List UInt8

/-- Read a string operand from the bytes after its opcode.  The terminator is
looked for first, so an unterminated string is never reported as bad text. -/
def readText (operand : List UInt8) : Except StreamFault Reading :=
  match WideString.readUnits? operand with
  | none => .error .unterminatedString
  | some (units, rest) =>
    match Utf16.decode? units with
    | none => .error .invalidString
    | some text =>
      .ok ⟨.push (.string (String.ofList text)), 1 + 2 * (units.length + 1), rest⟩

/-- What follows an opcode byte: a word of fixed size and the instruction it
completes, or a string up to its terminator. -/
inductive Operand
  | word (size : Nat) (complete : Nat -> Instruction)
  | string

/-- The operand of each opcode. -/
def operand : Opcode -> Operand
  | .pushInline biased => .word 0 (fun _ => .push (.int ((biased.val : Int) - 64) .inline))
  | .pushFloat32 => .word 4 (fun value => .push (.float32 (UInt32.ofNat value)))
  | .pushFloat64 => .word 8 (fun value => .push (.float64 (UInt64.ofNat value)))
  | .pushInt32 => .word 4 (fun value => .push (.int (Int.bmod value 4294967296) .i32))
  | .pushUInt16 => .word 2 (fun value => .push (.int value .u16))
  | .call args => .word 0 (fun _ => .call args.val)
  | .command =>
    .word 5 (fun value =>
      .command (UInt8.ofNat value) (UInt32.ofNat (value / 256)).toInt32)
  | .unary op => .word 0 (fun _ => .unary op)
  | .binary op => .word 0 (fun _ => .binary op)
  | .stop => .word 0 (fun _ => .stop)
  | .pushString => .string
  | .param slot => .word 0 (fun _ => .param (UInt8.ofNat slot.val))

/-- Read the instruction at the front of a buffer. -/
def read : List UInt8 -> Except StreamFault Reading
  | [] => .error .unexpectedEnd
  | byte :: rest =>
    match Opcode.ofByte? byte with
    | none => .error (.unrecognizedOpcode byte)
    | some opcode =>
      match operand opcode with
      | .string => readText rest
      | .word size complete =>
        match Word.read? size rest with
        | none => .error (.truncated byte size rest.length)
        | some (value, left) => .ok ⟨complete value, 1 + size, left⟩

theorem ne_nil_of_read {input : List UInt8} {reading : Reading}
    (done : read input = .ok reading) : input ≠ [] := by
  rintro rfl
  cases done

/-- The bytes taken and the bytes left make up the buffer. -/
theorem length_of_read {input : List UInt8} {reading : Reading}
    (done : read input = .ok reading) :
    input.length = reading.length + reading.rest.length := by
  unfold read at done
  split at done
  · cases done
  · split at done
    · cases done
    · split at done
      · unfold readText at done
        split at done
        · cases done
        · rename_i units left found
          split at done
          · cases done
          · cases done
            have counted := WideString.length_of_readUnits? found
            simp only [List.length_cons, counted]
            omega
      · split at done
        · cases done
        · rename_i value left found
          cases done
          have consumed := (Word.eq_bytes_of_read? found).1
          simp only [consumed, List.length_cons, List.length_append, Word.length_bytes]
          omega

theorem length_pos_of_read {input : List UInt8} {reading : Reading}
    (done : read input = .ok reading) : 0 < reading.length := by
  unfold read at done
  split at done
  · cases done
  · split at done
    · cases done
    · split at done
      · unfold readText at done
        split at done
        · cases done
        · split at done
          · cases done
          · cases done; exact Nat.lt_of_lt_of_le Nat.zero_lt_one (Nat.le_add_right 1 _)
      · split at done
        · cases done
        · cases done; exact Nat.lt_of_lt_of_le Nat.zero_lt_one (Nat.le_add_right 1 _)

/-- Reading shortens the buffer, so reading again and again ends. -/
theorem rest_lt_of_read {input : List UInt8} {reading : Reading}
    (done : read input = .ok reading) : reading.rest.length < input.length := by
  have counted := length_of_read done
  have positive := length_pos_of_read done
  omega

end Instruction
end Rpn
