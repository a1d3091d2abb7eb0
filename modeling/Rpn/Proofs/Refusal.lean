import Rpn.Instruction.RoundTrip

/-!
# What cannot be read

Bytes that are no instruction are refused for one of five reasons, and
`read_eq_error_iff` says of each when it is the one that is given.

A refusal may depend on bytes that are not there.  `settled?` counts the bytes
at the front of a buffer that settle what is read, whatever comes behind them:
those of an instruction, an opcode byte that is unknown, or a string that is no
text up to and including its terminator.  Nothing settles that an operand is
cut off or that a string is not terminated, because the missing bytes may
follow.
-/

namespace Rpn

/-- A word is not read exactly if bytes are missing. -/
theorem Word.read?_eq_none_iff {size : Nat} {input : List UInt8} :
    Word.read? size input = none ↔ input.length < size := by
  induction size generalizing input with
  | zero => simp only [Word.read?, reduceCtorEq, Nat.not_lt_zero]
  | succ size inductionHypothesis =>
      cases input with
      | nil => simp only [Word.read?, List.length_nil, Nat.zero_lt_succ]
      | cons byte rest =>
          rw [List.length_cons, Nat.succ_lt_succ_iff, ← inductionHypothesis]
          cases read : Word.read? size rest with
          | none => simp only [Word.read?, read]
          | some found => simp only [Word.read?, read, reduceCtorEq]

/-- The units up to a terminator are found again in front of any bytes. -/
theorem WideString.readUnits?_take_append {input rest : List UInt8} {units : List UInt16}
    (found : readUnits? input = some (units, rest)) (suffix : List UInt8) :
    readUnits? (input.take (2 * (units.length + 1)) ++ suffix) = some (units, suffix) := by
  rcases eq_bytes_of_readUnits? found with ⟨noZero, shape⟩
  have size := length_of_readUnits? found
  have again := readUnits?_append noZero suffix
  generalize units.flatMap (fun unit => Word.bytes 2 unit.toNat) = code at shape again
  have split : input = (code ++ [0, 0]) ++ rest := by
    rw [shape, List.append_assoc]
    rfl
  have count : (code ++ [0, 0]).length = 2 * (units.length + 1) := by
    rw [split, List.length_append] at size
    omega
  rw [split, List.take_left' count, List.append_assoc]
  exact again

namespace Instruction

/-- The reasons for which bytes are refused. -/
inductive Refused : List UInt8 -> StreamFault -> Prop
  | ended : Refused [] .unexpectedEnd
  | unknown {byte : UInt8} {operand : List UInt8} :
      Opcode.ofByte? byte = none -> Refused (byte :: operand) (.unrecognizedOpcode byte)
  | truncated {byte : UInt8} {operand : List UInt8} {opcode : Opcode} {size : Nat}
      {complete : Nat -> Instruction} :
      Opcode.ofByte? byte = some opcode -> Instruction.operand opcode = .word size complete ->
      operand.length < size ->
      Refused (byte :: operand) (.truncated byte size operand.length)
  | unterminated {byte : UInt8} {operand : List UInt8} :
      Opcode.ofByte? byte = some .pushString -> WideString.readUnits? operand = none ->
      Refused (byte :: operand) .unterminatedString
  | noText {byte : UInt8} {operand rest : List UInt8} {units : List UInt16} :
      Opcode.ofByte? byte = some .pushString ->
      WideString.readUnits? operand = some (units, rest) -> Utf16.decode? units = none ->
      Refused (byte :: operand) .invalidString

theorem eq_pushString_of_operand {opcode : Opcode} (shape : operand opcode = .string) :
    opcode = .pushString := by
  cases opcode with
  | pushString => rfl
  | _ => cases shape

theorem read_eq_error_iff {input : List UInt8} {fault : StreamFault} :
    read input = .error fault ↔ Refused input fault := by
  constructor
  · intro refused
    unfold read at refused
    split at refused
    · cases refused
      exact .ended
    · rename_i byte rest
      split at refused
      · rename_i unknown
        cases refused
        exact .unknown unknown
      · rename_i opcode known
        split at refused
        · rename_i shape
          rw [eq_pushString_of_operand shape] at known
          unfold readText at refused
          split at refused
          · rename_i missing
            cases refused
            exact .unterminated known missing
          · rename_i units left found
            split at refused
            · rename_i noText
              cases refused
              exact .noText known found noText
            · cases refused
        · rename_i size complete shape
          split at refused
          · rename_i short
            cases refused
            exact .truncated known shape (Word.read?_eq_none_iff.mp short)
          · cases refused
  · intro refused
    cases refused with
    | ended => rfl
    | unknown unknown => simp only [read, unknown]
    | truncated known shape short =>
        simp only [read, known, shape, Word.read?_eq_none_iff.mpr short]
    | unterminated known missing =>
        simp only [read, known, Instruction.operand, readText, missing]
    | noText known found noText =>
        simp only [read, known, Instruction.operand, readText, found, noText]

/-! ## Bytes that settle what is read -/

/-- How many bytes at the front of a buffer settle what is read there, if any
number does. -/
def settled? (input : List UInt8) : Option Nat :=
  match read input with
  | .ok reading => some reading.length
  | .error (.unrecognizedOpcode _) => some 1
  | .error .invalidString =>
    (WideString.readUnits? input.tail).map fun found => 1 + 2 * (found.1.length + 1)
  | .error _ => none

theorem settled?_of_read {input : List UInt8} {reading : Reading}
    (done : read input = .ok reading) : settled? input = some reading.length := by
  rw [settled?, done]

/-- The bytes of an instruction are read the same in front of any bytes. -/
theorem read_take_append_of_read {input : List UInt8} {reading : Reading}
    (done : read input = .ok reading) (suffix : List UInt8) :
    read (input.take reading.length ++ suffix) =
      .ok ⟨reading.instruction, reading.length, suffix⟩ := by
  rcases encode_of_read done with ⟨bytes, encoded, shape, count⟩
  rw [shape, List.take_left' count.symm, count]
  exact read_append_of_encode encoded suffix

theorem read_take_append_of_error {input : List UInt8} {fault : StreamFault} {count : Nat}
    (refused : read input = .error fault) (settled : settled? input = some count)
    (suffix : List UInt8) : read (input.take count ++ suffix) = .error fault := by
  rw [settled?, refused] at settled
  cases read_eq_error_iff.mp refused with
  | ended => cases settled
  | unknown unknown =>
      cases settled
      exact read_eq_error_iff.mpr (.unknown unknown)
  | truncated _ _ _ => cases settled
  | unterminated _ _ => cases settled
  | noText known found noText =>
      simp only [List.tail_cons, found, Option.map_some, Option.some.injEq] at settled
      rw [← settled, Nat.add_comm 1, List.take_succ_cons, List.cons_append]
      exact read_eq_error_iff.mpr
        (.noText known (WideString.readUnits?_take_append found suffix) noText)

/-- The bytes that settle what is read are there, and are some. -/
theorem settled?_bounds {input : List UInt8} {count : Nat}
    (settled : settled? input = some count) : 0 < count ∧ count ≤ input.length := by
  cases done : read input with
  | ok reading =>
      cases (settled?_of_read done).symm.trans settled
      have whole := length_of_read done
      have positive := length_pos_of_read done
      omega
  | error fault =>
      rw [settled?, done] at settled
      cases read_eq_error_iff.mp done with
      | ended => cases settled
      | unknown _ =>
          cases settled
          rw [List.length_cons]
          omega
      | truncated _ _ _ => cases settled
      | unterminated _ _ => cases settled
      | noText _ found _ =>
          simp only [List.tail_cons, found, Option.map_some, Option.some.injEq] at settled
          have size := WideString.length_of_readUnits? found
          rw [List.length_cons]
          omega

end Instruction
end Rpn
