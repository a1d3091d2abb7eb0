import Rpn.Proofs.Listing

/-!
# The entries of a listing tile the buffer

Every entry of a listing begins where the one before it ends, the first begins
at the front of the buffer and the last ends with it.  The bytes of an entry
are the encoding of its instruction, so no byte of the buffer is listed twice or
left out.  Main statements: a listing tiles its buffer (`tiles_of_disassemble`),
and the parts of a tiled buffer make up the buffer (`Tiles.flatMap_slice`).
-/

namespace Rpn

/-- The bytes of an entry. -/
def ListedInstruction.slice (bytes : List UInt8) (entry : ListedInstruction) : List UInt8 :=
  (bytes.drop entry.offset).take entry.length

/-- Entries that cover a buffer from an offset to its end without a gap.  The
end-marker can only be the last of them. -/
inductive Tiles (bytes : List UInt8) : Nat -> List ListedInstruction -> Prop
  | done : Tiles bytes bytes.length []
  | entry {entry : ListedInstruction} {rest : List ListedInstruction} :
      0 < entry.length -> entry.offset + entry.length ≤ bytes.length ->
      entry.instruction.encode = .ok (entry.slice bytes) ->
      (entry.instruction = .stop -> rest = []) ->
      Tiles bytes (entry.offset + entry.length) rest ->
      Tiles bytes entry.offset (entry :: rest)

/-- Where an instruction can be read, its encoding stands. -/
theorem slice_of_read {bytes : List UInt8} {offset : Nat}
    {reading : Instruction.Reading}
    (read : Instruction.read (bytes.drop offset) = .ok reading) :
    0 < reading.length ∧ offset + reading.length ≤ bytes.length ∧
      reading.instruction.encode = .ok ((bytes.drop offset).take reading.length) ∧
      reading.rest = bytes.drop (offset + reading.length) := by
  have positive := Instruction.length_pos_of_read read
  have whole := Instruction.length_of_read read
  rcases Instruction.encode_of_read read with ⟨code, encoded, shape, count⟩
  rw [List.length_drop] at whole
  refine ⟨positive, by omega, ?_, ?_⟩
  · rw [encoded, shape, List.take_left' count.symm]
  · rw [← List.drop_drop, shape, List.drop_left' count.symm]

theorem tiles_of_disassembleFrom {bytes : List UInt8} {offset : Nat}
    {entries : List ListedInstruction} (inside : offset ≤ bytes.length)
    (listed : disassembleFrom offset (bytes.drop offset) = .ok entries) :
    Tiles bytes offset entries := by
  cases shape : bytes.drop offset with
  | nil =>
      rw [shape, disassembleFrom_nil] at listed
      cases listed
      have ended : offset = bytes.length :=
        Nat.le_antisymm inside (List.drop_eq_nil_iff.mp shape)
      exact ended ▸ .done
  | cons byte others =>
      have nonempty : bytes.drop offset ≠ [] := shape ▸ List.cons_ne_nil byte others
      cases read : Instruction.read (bytes.drop offset) with
      | error fault =>
          rw [disassembleFrom_of_error nonempty read] at listed
          cases listed
      | ok reading =>
          rcases slice_of_read read with ⟨positive, within, encoded, rest⟩
          by_cases stop : reading.instruction = .stop
          · rw [disassembleFrom_of_stop read stop] at listed
            split at listed
            · rename_i last
              cases listed
              have ended : offset + reading.length = bytes.length :=
                Nat.le_antisymm within (List.drop_eq_nil_iff.mp (rest.symm.trans last))
              refine @Tiles.entry bytes ⟨offset, reading.length, .stop⟩ [] positive within
                (stop ▸ encoded) (fun _ => rfl) ?_
              exact ended ▸ .done
            · cases listed
          · rw [disassembleFrom_of_read read stop, rest] at listed
            cases later : disassembleFrom (offset + reading.length)
                (bytes.drop (offset + reading.length)) with
            | error error =>
                rw [later] at listed
                cases listed
            | ok following =>
                rw [later] at listed
                cases listed
                exact @Tiles.entry bytes ⟨offset, reading.length, reading.instruction⟩ following
                  positive within encoded (fun impossible => absurd impossible stop)
                  (tiles_of_disassembleFrom within later)
termination_by bytes.length - offset
decreasing_by omega

theorem tiles_of_disassemble {bytes : List UInt8} {entries : List ListedInstruction}
    (listed : disassemble bytes = .ok entries) : Tiles bytes 0 entries := by
  unfold disassemble at listed
  split at listed
  · cases listed
  · exact tiles_of_disassembleFrom (Nat.zero_le _) listed

namespace Tiles

variable {bytes : List UInt8} {offset : Nat} {entries : List ListedInstruction}

/-- The parts of a tiled buffer make up the buffer. -/
theorem flatMap_slice (tiles : Tiles bytes offset entries) :
    entries.flatMap (ListedInstruction.slice bytes) = bytes.drop offset := by
  induction tiles with
  | done => rw [List.flatMap_nil, List.drop_length]
  | @entry entry rest _ _ _ _ _ inductionHypothesis =>
      rw [List.flatMap_cons, inductionHypothesis, ListedInstruction.slice, ← List.drop_drop,
        List.take_append_drop]

end Tiles
end Rpn
