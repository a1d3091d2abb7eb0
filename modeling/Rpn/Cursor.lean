import Rpn.Instruction.Codec

/-!
# Reading at a position

A cursor is a buffer and a position in it.  Reading an instruction moves the
position on by the opcode and then by the operand, unit by unit if that is a
string.  A read that fails on the way puts the position back where it began, so
the same read fails again until the cursor is placed elsewhere.  A position
beyond the buffer is brought back to its end.
-/

namespace Rpn

/-- A buffer and a position in it. -/
structure Cursor where
  bytes : List UInt8
  position : Nat
  position_le : position ≤ bytes.length

namespace Cursor

/-- A cursor at an offset, or at the end if the offset is beyond it. -/
def ofOffset (bytes : List UInt8) (offset : Nat) : Cursor :=
  ⟨bytes, min offset bytes.length, Nat.min_le_right _ _⟩

/-- A cursor at the first byte of a buffer. -/
def ofBytes (bytes : List UInt8) : Cursor :=
  .ofOffset bytes 0

/-- The bytes not yet read. -/
def rest (cursor : Cursor) : List UInt8 :=
  cursor.bytes.drop cursor.position

/-- Whether every byte was read. -/
def atEnd (cursor : Cursor) : Bool :=
  cursor.position == cursor.bytes.length

/-- The same buffer, some bytes further on. -/
def advance (cursor : Cursor) (count : Nat) : Cursor :=
  .ofOffset cursor.bytes (cursor.position + count)

theorem rest_advance (cursor : Cursor) (count : Nat) :
    (cursor.advance count).rest = cursor.rest.drop count := by
  have moved : (cursor.advance count).rest =
      cursor.bytes.drop (min (cursor.position + count) cursor.bytes.length) := rfl
  rw [moved, rest, List.drop_drop]
  rcases Nat.le_total (cursor.position + count) cursor.bytes.length with within | beyond
  · rw [Nat.min_eq_left within]
  · rw [Nat.min_eq_right beyond, List.drop_length, List.drop_of_length_le beyond]

/-! ## Moves -/

/-- What moves a cursor and may fail on the way.  A failure leaves the cursor
where the moves until then have brought it. -/
abbrev Move := ExceptT StreamFault (StateM Cursor)

/-- The units of a string operand up to its terminator. -/
def units (cursor : Cursor) : Except StreamFault (List UInt16) × Cursor :=
  match _shape : cursor.rest with
  | low :: high :: _ =>
    let moved := cursor.advance 2
    if low = 0 ∧ high = 0 then (.ok [], moved)
    else
      let (others, behind) := units moved
      (others.map fun others => UInt16.ofNat (low.toNat + 256 * high.toNat) :: others, behind)
  | _ => (.error .unterminatedString, cursor)
termination_by cursor.rest.length
decreasing_by
  rw [rest_advance, _shape]
  simp only [List.drop_succ_cons, List.drop_zero, List.length_cons]
  omega

namespace Move

def skip (count : Nat) : Move Unit :=
  modify fun cursor => cursor.advance count

/-- The operand of fixed size behind an opcode. -/
def word (opcode : UInt8) (size : Nat) : Move Nat := do
  let cursor ← get
  match Word.read? size cursor.rest with
  | none => throw (.truncated opcode size cursor.rest.length)
  | some (value, _) =>
    skip size
    return value

/-- The string operand behind an opcode. -/
def text : Move String := do
  let units ← ExceptT.mk units
  match Utf16.decode? units with
  | none => throw .invalidString
  | some text => return String.ofList text

/-- The instruction that an operand completes. -/
def completed (opcode : UInt8) : Instruction.Operand -> Move Instruction
  | .string => do return .push (.string (← text))
  | .word size complete => do return complete (← word opcode size)

/-- The instruction at the position. -/
def instruction : Move Instruction := do
  let cursor ← get
  match cursor.bytes[cursor.position]? with
  | none => throw .unexpectedEnd
  | some byte =>
    skip 1
    match Opcode.ofByte? byte with
    | none => throw (.unrecognizedOpcode byte)
    | some opcode => completed byte (Instruction.operand opcode)

end Move

/-- Read one instruction.  The answer is the instruction and the number of
bytes it took, or the error and the position at which the read began; with it
comes the cursor behind the instruction, or put back. -/
def read (cursor : Cursor) : Except StreamError (Instruction × Nat) × Cursor :=
  match Move.instruction.run.run cursor with
  | (.ok instruction, moved) => (.ok (instruction, moved.position - cursor.position), moved)
  | (.error fault, moved) =>
    (.error ⟨cursor.position, fault⟩, .ofOffset moved.bytes cursor.position)

end Cursor
end Rpn
