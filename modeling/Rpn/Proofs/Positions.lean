import Rpn.Cursor

/-!
# Reading by moving a position

A read moves the position while it goes on, and where it fails the position is
anywhere between the opcode and the end of the buffer (`Cursor.Arrives`).  Main
statement: it finds what is read from the front of the bytes left, and leaves
the position behind the instruction or, if there is none, where it was
(`Cursor.read_eq`).
-/

namespace Rpn
namespace Cursor

theorem advance_advance (cursor : Cursor) (first second : Nat) :
    (cursor.advance first).advance second = cursor.advance (first + second) := by
  have same : min (min (cursor.position + first) cursor.bytes.length + second)
      cursor.bytes.length = min (cursor.position + (first + second)) cursor.bytes.length := by
    omega
  simp only [advance, ofOffset, same]

theorem position_advance {cursor : Cursor} {count : Nat}
    (inside : cursor.position + count ≤ cursor.bytes.length) :
    (cursor.advance count).position = cursor.position + count :=
  Nat.min_eq_left inside

theorem ofOffset_position (cursor : Cursor) : ofOffset cursor.bytes cursor.position = cursor := by
  simp only [ofOffset, Nat.min_eq_left cursor.position_le]

theorem advance_zero (cursor : Cursor) : cursor.advance 0 = cursor :=
  ofOffset_position cursor

theorem getElem?_position (cursor : Cursor) :
    cursor.bytes[cursor.position]? = cursor.rest.head? := by
  rw [rest, List.head?_drop]

/-- Where moves leave a cursor: behind the bytes they take, or somewhere if
they fail. -/
inductive Arrives {Value : Type} (cursor : Cursor) :
    Except StreamFault (Value × Nat) -> Except StreamFault Value × Cursor -> Prop
  | behind (value : Value) (count : Nat) :
      Arrives cursor (.ok (value, count)) (.ok value, cursor.advance count)
  | astray (fault : StreamFault) (count : Nat) :
      Arrives cursor (.error fault) (.error fault, cursor.advance count)

theorem Arrives.stays {Value : Type} (cursor : Cursor) (fault : StreamFault) :
    cursor.Arrives (.error fault : Except StreamFault (Value × Nat))
      (.error fault, cursor) := by
  have nowhere : cursor.Arrives (.error fault : Except StreamFault (Value × Nat))
      (.error fault, cursor.advance 0) := .astray fault 0
  rwa [advance_zero] at nowhere

/-! ## Operands -/

/-- The units in front of a terminator, and the number of bytes with it. -/
def unitsOf (input : List UInt8) : Except StreamFault (List UInt16 × Nat) :=
  match WideString.readUnits? input with
  | none => .error .unterminatedString
  | some (units, _) => .ok (units, 2 * (units.length + 1))

theorem units_arrives (cursor : Cursor) : cursor.Arrives (unitsOf cursor.rest) cursor.units := by
  fun_induction units cursor with
  | case1 cursor low high rest shape moved zero =>
      have found : unitsOf cursor.rest = .ok ([], 2) := by
        rw [unitsOf, shape, WideString.readUnits?, if_pos zero]
        rfl
      rw [found]
      exact .behind [] 2
  | case2 cursor low high rest shape moved going others behind result inductionHypothesis =>
      have left : moved.rest = rest := by
        rw [rest_advance, shape]
        rfl
      rw [left, result] at inductionHypothesis
      rw [unitsOf, shape, WideString.readUnits?, if_neg going]
      cases found : WideString.readUnits? rest with
      | none =>
          rw [unitsOf, found] at inductionHypothesis
          cases inductionHypothesis with
          | astray fault count =>
              rw [advance_advance]
              exact .astray _ _
      | some pair =>
          rw [unitsOf, found] at inductionHypothesis
          cases inductionHypothesis with
          | behind units count =>
              have same : 2 + 2 * (pair.1.length + 1) = 2 * (pair.1.length + 1 + 1) := by omega
              rw [advance_advance, same]
              exact .behind _ _
  | case3 cursor short =>
      have missing : WideString.readUnits? cursor.rest = none := by
        rcases left : cursor.rest with _ | ⟨low, _ | ⟨high, others⟩⟩
        · rfl
        · rfl
        · exact absurd left (short low high others)
      rw [unitsOf, missing]
      exact .stays cursor _

namespace Move

variable {First Second : Type} (cursor : Cursor) (byte : UInt8)

theorem run_bind (first : Move First) (next : First -> Move Second) :
    (first >>= next).run.run cursor =
      match first.run.run cursor with
      | (.error fault, moved) => (.error fault, moved)
      | (.ok value, moved) => (next value).run.run moved := by
  rw [ExceptT.run_bind, StateT.run_bind]
  rcases first.run.run cursor with ⟨_ | _, _⟩ <;> rfl

theorem run_get_bind (next : Cursor -> Move Second) :
    (get >>= next).run.run cursor = (next cursor).run.run cursor :=
  rfl

theorem run_skip_bind (count : Nat) (next : Unit -> Move Second) :
    (skip count >>= next).run.run cursor = (next ()).run.run (cursor.advance count) :=
  rfl

theorem text_arrives :
    cursor.Arrives
      ((Instruction.readText (cursor.advance 1).rest).map fun reading =>
        (reading.instruction, reading.length))
      ((completed byte .string).run.run (cursor.advance 1)) := by
  have arrives := units_arrives (cursor.advance 1)
  have taken : (ExceptT.mk units : Move (List UInt16)).run.run (cursor.advance 1) =
      (cursor.advance 1).units := rfl
  rw [completed, run_bind, text, run_bind, taken, Instruction.readText]
  generalize (cursor.advance 1).units = came at arrives
  cases found : WideString.readUnits? (cursor.advance 1).rest with
  | none =>
      rw [unitsOf, found] at arrives
      cases arrives with
      | astray fault count =>
          rw [advance_advance]
          exact .astray _ _
  | some pair =>
      rw [unitsOf, found] at arrives
      cases arrives with
      | behind units count =>
          rw [advance_advance]
          dsimp only
          cases Utf16.decode? pair.1 with
          | none => exact .astray _ _
          | some text => exact .behind _ _

theorem word_arrives (size : Nat) (complete : Nat -> Instruction) :
    cursor.Arrives
      (match Word.read? size (cursor.advance 1).rest with
        | none => .error (.truncated byte size (cursor.advance 1).rest.length)
        | some (value, _) => .ok (complete value, 1 + size))
      ((completed byte (.word size complete)).run.run (cursor.advance 1)) := by
  rw [completed, run_bind, word, run_get_bind]
  cases Word.read? size (cursor.advance 1).rest with
  | none => exact .astray _ 1
  | some pair =>
      rw [run_skip_bind, advance_advance]
      exact .behind _ _

/-! ## One instruction -/

theorem instruction_arrives :
    cursor.Arrives
      ((Instruction.read cursor.rest).map fun reading => (reading.instruction, reading.length))
      (instruction.run.run cursor) := by
  rw [instruction, run_get_bind, getElem?_position]
  cases left : cursor.rest with
  | nil => exact .stays cursor _
  | cons byte operand =>
      have behind : (cursor.advance 1).rest = operand := by
        rw [rest_advance, left]
        rfl
      rw [List.head?_cons, run_skip_bind, Instruction.read]
      cases Opcode.ofByte? byte with
      | none => exact .astray _ 1
      | some opcode =>
          dsimp only
          cases Instruction.operand opcode with
          | string =>
              have arrives := text_arrives cursor byte
              rwa [behind] at arrives
          | word size complete =>
              have arrives := word_arrives cursor byte size complete
              rw [behind] at arrives
              dsimp only
              generalize Word.read? size operand = found at arrives ⊢
              cases found with
              | none => exact arrives
              | some pair => exact arrives

end Move

/-! ## The cursor after a read -/

theorem position_add_le_of_read {cursor : Cursor} {reading : Instruction.Reading}
    (found : Instruction.read cursor.rest = .ok reading) :
    cursor.position + reading.length ≤ cursor.bytes.length := by
  have counted := Instruction.length_of_read found
  have inside := cursor.position_le
  rw [rest, List.length_drop] at counted
  omega

/-- Reading at a position is reading from the front of the bytes left. -/
theorem read_eq (cursor : Cursor) :
    cursor.read =
      match Instruction.read cursor.rest with
      | .error fault => (.error ⟨cursor.position, fault⟩, cursor)
      | .ok reading =>
        (.ok (reading.instruction, reading.length), cursor.advance reading.length) := by
  have arrives := Move.instruction_arrives cursor
  rw [read]
  cases found : Instruction.read cursor.rest with
  | error fault =>
      rw [found] at arrives
      generalize Move.instruction.run.run cursor = came at arrives
      cases arrives with
      | astray _ count =>
          -- Moves keep the buffer, so the old position in it is all there is to put back.
          exact congrArg (Prod.mk _) cursor.ofOffset_position
  | ok reading =>
      rw [found] at arrives
      generalize Move.instruction.run.run cursor = came at arrives
      cases arrives with
      | behind _ count =>
          simp only [position_advance (position_add_le_of_read found), Nat.add_sub_cancel_left]

end Cursor
end Rpn
