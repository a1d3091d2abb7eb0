import Rpn.Proofs.Attempts
import Rpn.Proofs.Tiling

/-!
# A listing written back

A listing holds everything that is in its buffer.  Its entries account for the
bytes without a gap and without an overlap, and an assembler that is asked for
their instructions in order writes the buffer again, entry by entry.  The
argument counts of commands are not in the buffer, so any will do; they move
the simulated stack and no byte.

Main statement: `transcript_of_disassemble`.  It holds of every buffer that can
be listed, also of one that leaves no single value.
-/

namespace Rpn

/-- Whether entries account for every byte of a buffer, in order and once. -/
structure Contiguous (bytes : List UInt8) (entries : List ListedInstruction) : Prop where
  nonempty : entries ≠ []
  first : entries.head?.map ListedInstruction.offset = some 0
  next : entries.IsChain fun entry following => following.offset = entry.offset + entry.length
  last : entries.getLast?.map (fun entry => entry.offset + entry.length) = some bytes.length
  positive : forall entry, entry ∈ entries -> 1 ≤ entry.length
  stop : Instruction.StopOnlyLast (entries.map ListedInstruction.instruction)

/-- The step that asks for the instruction of an entry.  The argument count of
a command may be another one at each entry. -/
def ListedInstruction.step (args : ListedInstruction -> Nat) (entry : ListedInstruction) :
    Assembler.Step :=
  entry.instruction.step (args entry)

namespace Tiles

variable {bytes : List UInt8} {offset : Nat} {entry : ListedInstruction}
  {entries : List ListedInstruction}

/-! ## Where the entries lie -/

theorem offset_eq (tiles : Tiles bytes offset (entry :: entries)) : entry.offset = offset := by
  cases tiles
  rfl

theorem eq_length (tiles : Tiles bytes offset []) : offset = bytes.length := by
  cases tiles
  rfl

theorem isChain (tiles : Tiles bytes offset entries) :
    entries.IsChain fun entry following => following.offset = entry.offset + entry.length := by
  induction tiles with
  | done => exact .nil
  | @entry entry rest _ _ _ _ others inductionHypothesis =>
      cases rest with
      | nil => exact .singleton entry
      | cons following rest =>
          exact List.isChain_cons_cons.mpr ⟨others.offset_eq, inductionHypothesis⟩

theorem map_getLast? (tiles : Tiles bytes offset entries) (nonempty : entries ≠ []) :
    entries.getLast?.map (fun entry => entry.offset + entry.length) = some bytes.length := by
  induction tiles with
  | done => exact absurd rfl nonempty
  | @entry entry rest _ _ _ _ others inductionHypothesis =>
      cases rest with
      | nil => exact congrArg some others.eq_length
      | cons following rest =>
          rw [List.getLast?_cons_cons]
          exact inductionHypothesis (List.cons_ne_nil following rest)

theorem length_pos_of_mem (tiles : Tiles bytes offset entries) (member : entry ∈ entries) :
    0 < entry.length := by
  induction tiles with
  | done => cases member
  | entry positive _ _ _ _ inductionHypothesis =>
      cases member with
      | head => exact positive
      | tail _ later => exact inductionHypothesis later

theorem stopOnlyLast (tiles : Tiles bytes offset entries) :
    Instruction.StopOnlyLast (entries.map ListedInstruction.instruction) := by
  induction tiles with
  | done => trivial
  | entry _ _ _ last _ inductionHypothesis =>
      exact ⟨fun stop => List.map_eq_nil_iff.mpr (last stop), inductionHypothesis⟩

theorem contiguous (tiles : Tiles bytes 0 entries) (nonempty : entries ≠ []) :
    Contiguous bytes entries where
  nonempty := nonempty
  first := by
    cases entries with
    | nil => exact absurd rfl nonempty
    | cons entry rest => exact congrArg some tiles.offset_eq
  next := tiles.isChain
  last := tiles.map_getLast? nonempty
  positive := fun _ => tiles.length_pos_of_mem
  stop := tiles.stopOnlyLast

/-! ## What is written for the entries -/

theorem encode_of_mem (tiles : Tiles bytes offset entries) (member : entry ∈ entries) :
    entry.instruction.encode = .ok (entry.slice bytes) := by
  induction tiles with
  | done => cases member
  | entry _ _ encoded _ _ inductionHypothesis =>
      cases member with
      | head => exact encoded
      | tail _ later => exact inductionHypothesis later

/-- Asking for the instructions of entries one after another writes the bytes
that the entries cover. -/
theorem toList_bytes_attemptAll (tiles : Tiles bytes offset entries) (assembler : Assembler)
    (args : ListedInstruction -> Nat) :
    (assembler.attemptAll (entries.map (ListedInstruction.step args))).bytes.toList =
      assembler.bytes.toList ++ bytes.drop offset := by
  have steps : forall entry, entry ∈ entries ->
      (entry.step args).Representable ∧ (entry.step args).code = entry.slice bytes :=
    fun entry member => Instruction.step_of_encode (tiles.encode_of_mem member) (args entry)
  have code : (entries.map (ListedInstruction.step args)).flatMap Assembler.Step.code =
      bytes.drop offset := by
    rw [List.flatMap_map, List.flatMap_congr fun entry member => (steps entry member).2]
    exact tiles.flatMap_slice
  rw [← code]
  apply Assembler.toList_bytes_attemptAll
  intro step member
  rcases List.mem_map.mp member with ⟨entry, listed, rfl⟩
  exact (steps entry listed).1

end Tiles

theorem ne_nil_of_disassemble {bytes : List UInt8} {entries : List ListedInstruction}
    (listed : disassemble bytes = .ok entries) : entries ≠ [] := by
  rintro rfl
  have ended := (tiles_of_disassemble listed).eq_length
  cases List.length_eq_zero_iff.mp ended.symm
  cases listed

/-- The entries of a listing account for every byte of the buffer.  An
assembler that is asked for their instructions in order, with any argument
counts, refuses none of them, writes for each exactly the bytes of its entry,
and so comes to the buffer. -/
theorem transcript_of_disassemble {bytes : List UInt8} {entries : List ListedInstruction}
    (listed : disassemble bytes = .ok entries) :
    Contiguous bytes entries ∧
    forall args : ListedInstruction -> Nat,
      (forall before entry after, entries = before ++ entry :: after ->
        let current := Assembler.empty.attemptAll (before.map (ListedInstruction.step args))
        (current.attempt (entry.step args)).1 = none ∧
          (current.attempt (entry.step args)).2.bytes.toList =
            current.bytes.toList ++ entry.slice bytes) ∧
      (Assembler.empty.attemptAll (entries.map (ListedInstruction.step args))).bytes.toList =
        bytes := by
  have tiles := tiles_of_disassemble listed
  refine ⟨tiles.contiguous (ne_nil_of_disassemble listed), fun args => ⟨?_, ?_⟩⟩
  · rintro before entry after rfl
    have member : entry ∈ before ++ entry :: after :=
      List.mem_append_right before List.mem_cons_self
    exact Instruction.writtenAs_iff.mpr (tiles.encode_of_mem member) _ (args entry)
  · exact tiles.toList_bytes_attemptAll Assembler.empty args

/-- An addition without operands, a single-precision NaN with a payload, a
string of one surrogate pair, and a command that is given three arguments. -/
theorem transcript_of_disassemble_nanString :
    let bytes := [0x8D, 0x80, 0x01, 0x00, 0xC0, 0xFF, 0xA5, 0x34, 0xD8, 0x1E, 0xDD, 0x00, 0x00,
      0x8B, 0x06, 0x0C, 0x00, 0x00, 0x00, 0xA1]
    let entries := [⟨0, 1, .binary .add⟩, ⟨1, 5, .push (.float32 0xFFC00001)⟩,
      ⟨6, 7, .push (.string "𝄞")⟩, ⟨13, 6, .command 6 12⟩, ⟨19, 1, .stop⟩]
    disassemble bytes = .ok entries ∧ Contiguous bytes entries ∧
      (Assembler.empty.attemptAll
        (entries.map (ListedInstruction.step fun _ => 3))).bytes.toList = bytes := by
  intro bytes entries
  have listed : disassemble bytes = .ok entries := by decide +kernel
  rcases transcript_of_disassemble listed with ⟨contiguous, written⟩
  exact ⟨listed, contiguous, (written fun _ => 3).2⟩

end Rpn
