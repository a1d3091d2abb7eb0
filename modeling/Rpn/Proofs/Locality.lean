import Rpn.Proofs.Positions
import Rpn.Proofs.Refusal

/-!
# Reading depends on the instruction alone

What is read at a position is settled by the bytes from there to the end of the
instruction.  Bytes in front of a buffer only move its positions, and bytes
behind an instruction are not looked at.  Main statement: reading is local in
this sense, and an instruction is not read from a part of its bytes
(`Cursor.reads_locally`).

A cursor reads by moving its position, and `Cursor.read_eq` takes that back to
the bytes left.  That absolute positions do the same while they are words of
the machine is `Guarded.fetch_cursor`.
-/

namespace Rpn

/-- The same error in a buffer with `count` more bytes in front. -/
def StreamError.moved (error : StreamError) (count : Nat) : StreamError :=
  { error with offset := count + error.offset }

/-- An instruction is not read from a proper part of its bytes. -/
theorem Instruction.exists_fault_of_part {input part : List UInt8} {reading : Reading}
    (done : read input = .ok reading) (begins : part <+: input.take reading.length)
    (proper : part ≠ input.take reading.length) :
    Exists fun fault => read part = .error fault := by
  rcases begins with ⟨missing, whole⟩
  cases early : read part with
  | error fault => exact ⟨fault, rfl⟩
  | ok earlier =>
      -- Both readings are of the same instruction, so nothing is left for the missing bytes.
      have continued := read_append_of_read early missing
      have complete := read_take_append_of_read done []
      rw [List.append_nil] at complete
      rw [whole, complete] at continued
      have left : [] = earlier.rest ++ missing :=
        congrArg Reading.rest (Except.ok.inj continued)
      have none : missing = [] := (List.append_eq_nil_iff.mp left.symm).2
      rw [none, List.append_nil] at whole
      exact absurd whole proper

namespace Cursor

/-- The same place of a buffer that has more bytes in front. -/
def behind (cursor : Cursor) (front : List UInt8) : Cursor where
  bytes := front ++ cursor.bytes
  position := front.length + cursor.position
  position_le := by
    have inside := cursor.position_le
    rw [List.length_append]
    omega

theorem rest_behind (cursor : Cursor) (front : List UInt8) :
    (cursor.behind front).rest = cursor.rest := by
  unfold rest
  exact List.drop_length_add_append cursor.position

theorem ofOffset_append (front bytes : List UInt8) (offset : Nat) :
    ofOffset (front ++ bytes) (front.length + offset) = (ofOffset bytes offset).behind front := by
  unfold ofOffset behind
  simp only [List.length_append, mk.injEq, true_and]
  omega

theorem advance_behind (cursor : Cursor) (front : List UInt8) (count : Nat) :
    (cursor.behind front).advance count = (cursor.advance count).behind front := by
  unfold advance
  rw [← ofOffset_append, ← Nat.add_assoc]
  rfl

/-- Bytes in front move the positions and nothing else. -/
theorem read_behind (cursor : Cursor) (front : List UInt8) :
    (cursor.behind front).read =
      (cursor.read.1.mapError fun error => error.moved front.length,
        cursor.read.2.behind front) := by
  rw [read_eq, read_eq, rest_behind]
  cases Instruction.read cursor.rest with
  | error fault => rfl
  | ok reading =>
      dsimp only
      rw [advance_behind]
      rfl

theorem read_ofBytes (bytes : List UInt8) :
    (ofBytes bytes).read =
      match Instruction.read bytes with
      | .error fault => (.error ⟨0, fault⟩, ofBytes bytes)
      | .ok reading => (.ok (reading.instruction, reading.length), ofOffset bytes reading.length) := by
  have place : (ofBytes bytes).position = 0 := Nat.zero_min bytes.length
  have front : (ofBytes bytes).rest = bytes := by
    unfold rest
    rw [place]
    rfl
  rw [read_eq, front, place]
  cases Instruction.read bytes with
  | error fault => rfl
  | ok reading =>
      dsimp only
      rw [advance, place, Nat.zero_add]
      rfl

/-- A read at a position of a longer buffer is the read at the front of what
follows, moved by the bytes in front.  If it succeeds, the bytes of the
instruction are read the same in front of any others, and no proper part of
them is read at all. -/
theorem reads_locally (front bytes : List UInt8) :
    (forall offset, (ofOffset (front ++ bytes) (front.length + offset)).read =
      ((ofOffset bytes offset).read.1.mapError fun error => error.moved front.length,
        (ofOffset bytes offset).read.2.behind front)) ∧
    forall instruction count following,
      (ofBytes bytes).read = (.ok (instruction, count), following) ->
        count ≤ bytes.length ∧
        (forall suffix, (ofBytes (bytes.take count ++ suffix)).read =
          (.ok (instruction, count), ofOffset (bytes.take count ++ suffix) count)) ∧
        forall part, part <+: bytes.take count -> part ≠ bytes.take count ->
          Exists fun fault => (ofBytes part).read = (.error ⟨0, fault⟩, ofBytes part) := by
  refine ⟨?_, ?_⟩
  · intro offset
    rw [ofOffset_append, read_behind]
  · intro instruction count following done
    rw [read_ofBytes] at done
    cases found : Instruction.read bytes with
    | error fault =>
        rw [found] at done
        cases done
    | ok reading =>
        rw [found] at done
        cases done
        refine ⟨?_, ?_, ?_⟩
        · have whole := Instruction.length_of_read found
          omega
        · intro suffix
          rw [read_ofBytes, Instruction.read_take_append_of_read found suffix]
        · intro part begins proper
          rcases Instruction.exists_fault_of_part found begins proper with ⟨fault, refused⟩
          refine ⟨fault, ?_⟩
          rw [read_ofBytes, refused]

/-- The text "a" between two unknown opcodes: its five bytes are read alike in
front of any bytes, and not without the last of them. -/
theorem reads_locally_letter :
    (ofOffset [0xFF, 0xA5, 0x61, 0x00, 0x00, 0x00, 0xFF] 1).read =
        (.ok (.push (.string "a"), 5), ofOffset [0xFF, 0xA5, 0x61, 0x00, 0x00, 0x00, 0xFF] 6) ∧
      (forall suffix, (ofBytes ([0xA5, 0x61, 0x00, 0x00, 0x00] ++ suffix)).read =
        (.ok (.push (.string "a"), 5), ofOffset ([0xA5, 0x61, 0x00, 0x00, 0x00] ++ suffix) 5)) ∧
      Exists fun fault => (ofBytes [0xA5, 0x61, 0x00, 0x00]).read =
        (.error ⟨0, fault⟩, ofBytes [0xA5, 0x61, 0x00, 0x00]) := by
  have done : (ofBytes [0xA5, 0x61, 0x00, 0x00, 0x00, 0xFF]).read =
      (.ok (.push (.string "a"), 5), ofOffset [0xA5, 0x61, 0x00, 0x00, 0x00, 0xFF] 5) := by
    rw [read_ofBytes]
    rfl
  have whole := reads_locally [0xFF] [0xA5, 0x61, 0x00, 0x00, 0x00, 0xFF]
  have behind := whole.1 0
  rw [← ofBytes, done] at behind
  rcases whole.2 _ _ _ done with ⟨_, same, parts⟩
  exact ⟨behind, same, parts [0xA5, 0x61, 0x00, 0x00] ⟨[0x00], rfl⟩ nofun⟩

end Cursor
end Rpn
