import Rpn.Proofs.Ending
import Rpn.Proofs.Refusal

/-!
# Listing and executing the same bytes

A listing and an execution read a buffer instruction by instruction with the
same reader, and each has its own loop.  They find an empty buffer, the
end-marker and bytes behind it at different places, and an execution may stop
at an instruction that it cannot carry out.

The two loops are tied together by one equation: wherever an execution has
come to, the listing of the buffer is the trace so far and the listing of the
bytes left (`disassembleFrom_of_reaches`).  An execution that stops early
therefore stops in front of any fault of the listing.  Main statement: the two
agree on every stream error (`decompile_disassemble_agree`).
-/

namespace Rpn

/-! ## What a single read may report -/

/-- Whether the fault lies in one instruction, the other faults being those of
a whole buffer. -/
def StreamFault.InInstruction : StreamFault -> Prop
  | truncated _ _ _ | unrecognizedOpcode _ | unterminatedString | invalidString => True
  | empty | unexpectedEnd | trailingBytes _ | missingTerminator => False

theorem Instruction.inInstruction_of_read {input : List UInt8} {fault : StreamFault}
    (nonempty : input ≠ []) (refused : Instruction.read input = .error fault) :
    fault.InInstruction := by
  cases Instruction.read_eq_error_iff.mp refused with
  | ended => exact absurd rfl nonempty
  | unknown _ => trivial
  | truncated _ _ _ => trivial
  | unterminated _ _ => trivial
  | noText _ _ _ => trivial

/-! ## Listing from a position on -/

theorem disassembleFrom_nil (offset : Nat) : disassembleFrom offset [] = .ok [] := by
  rw [disassembleFrom]
  rfl

section

variable {offset : Nat} {rest : List UInt8}

theorem disassembleFrom_of_error {fault : StreamFault} (nonempty : rest ≠ [])
    (refused : Instruction.read rest = .error fault) :
    disassembleFrom offset rest = .error ⟨offset, fault⟩ := by
  have filled : ¬ rest.isEmpty := fun empty => nonempty (List.isEmpty_iff.mp empty)
  rw [disassembleFrom, if_neg filled]
  split
  · rename_i other found
    cases found.symm.trans refused
    rfl
  · rename_i reading found
    cases found.symm.trans refused

theorem disassembleFrom_of_stop {reading : Instruction.Reading}
    (read : Instruction.read rest = .ok reading) (stop : reading.instruction = .stop) :
    disassembleFrom offset rest =
      if reading.rest = [] then .ok [⟨offset, reading.length, .stop⟩]
      else .error ⟨offset + reading.length, .trailingBytes reading.rest.length⟩ := by
  have filled : ¬ rest.isEmpty :=
    fun empty => Instruction.ne_nil_of_read read (List.isEmpty_iff.mp empty)
  rw [disassembleFrom, if_neg filled]
  split
  · rename_i fault found
    cases found.symm.trans read
  · rename_i other found
    cases found.symm.trans read
    simp only [stop, List.isEmpty_iff]

theorem disassembleFrom_of_read {reading : Instruction.Reading}
    (read : Instruction.read rest = .ok reading) (going : reading.instruction ≠ .stop) :
    disassembleFrom offset rest =
      (disassembleFrom (offset + reading.length) reading.rest).map
        (⟨offset, reading.length, reading.instruction⟩ :: ·) := by
  have filled : ¬ rest.isEmpty :=
    fun empty => Instruction.ne_nil_of_read read (List.isEmpty_iff.mp empty)
  rw [disassembleFrom, if_neg filled]
  split
  · rename_i fault found
    cases found.symm.trans read
  · rename_i other found
    cases found.symm.trans read
    split
    · rename_i stop
      exact absurd stop going
    · dsimp only
      cases disassembleFrom (offset + reading.length) reading.rest with
      | error error => rfl
      | ok entries => rfl

/-- An error is found where the listing begins or later, and never by asking
for an instruction behind the last byte. -/
theorem offset_le_of_disassembleFrom {offset : Nat} {rest : List UInt8} {error : StreamError}
    (failed : disassembleFrom offset rest = .error error) :
    offset ≤ error.offset ∧ error.fault ≠ .unexpectedEnd := by
  cases shape : rest with
  | nil =>
      rw [shape, disassembleFrom_nil] at failed
      cases failed
  | cons byte others =>
      have nonempty : rest ≠ [] := shape ▸ List.cons_ne_nil byte others
      cases read : Instruction.read rest with
      | error fault =>
          rw [disassembleFrom_of_error nonempty read] at failed
          cases failed
          have single := Instruction.inInstruction_of_read nonempty read
          refine ⟨Nat.le_refl offset, ?_⟩
          rintro rfl
          exact single
      | ok reading =>
          by_cases stop : reading.instruction = .stop
          · rw [disassembleFrom_of_stop read stop] at failed
            split at failed
            · cases failed
            · cases failed
              exact ⟨Nat.le_add_right _ _, nofun⟩
          · rw [disassembleFrom_of_read read stop] at failed
            cases later : disassembleFrom (offset + reading.length) reading.rest with
            | ok entries =>
                rw [later] at failed
                cases failed
            | error other =>
                rw [later] at failed
                cases failed
                have further := offset_le_of_disassembleFrom later
                exact ⟨Nat.le_trans (Nat.le_add_right _ _) further.1, further.2⟩
termination_by rest.length
decreasing_by exact Instruction.rest_lt_of_read read

/-- Behind an instruction that can be read, an error is found strictly later. -/
theorem offset_lt_of_disassembleFrom {offset : Nat} {rest : List UInt8}
    {reading : Instruction.Reading} {error : StreamError}
    (read : Instruction.read rest = .ok reading)
    (failed : disassembleFrom offset rest = .error error) : offset < error.offset := by
  have positive := Instruction.length_pos_of_read read
  by_cases stop : reading.instruction = .stop
  · rw [disassembleFrom_of_stop read stop] at failed
    split at failed
    · cases failed
    · cases failed
      exact Nat.lt_add_of_pos_right positive
  · rw [disassembleFrom_of_read read stop] at failed
    cases later : disassembleFrom (offset + reading.length) reading.rest with
    | ok entries =>
        rw [later] at failed
        cases failed
    | error other =>
        rw [later] at failed
        cases failed
        have further := offset_le_of_disassembleFrom later
        omega

end

/-! ## Listing along an execution -/

theorem Node.instruction_ne_stop (node : Node) : node.instruction ≠ .stop := by
  cases node <;> exact nofun

namespace Decompiler

/-- Wherever an execution has come to, the listing of the buffer is the trace
so far and the listing of the bytes left. -/
theorem disassembleFrom_of_reaches {arities : ArityTable} {options : DecompileOptions}
    {bytes : List UInt8} {state : State}
    (steps : State.Reaches arities options (.start bytes) state) :
    disassembleFrom 0 bytes =
      (disassembleFrom state.offset state.rest).map (state.trace.reverse ++ ·) := by
  induction steps with
  | refl =>
      cases whole : disassembleFrom 0 bytes with
      | error error => simp only [State.start, whole, Except.map]
      | ok entries => simp only [State.start, whole, Except.map, List.reverse_nil, List.nil_append]
  | tail earlier turned inductionHypothesis =>
      rcases Faithful.of_reaches earlier with ⟨forest, faithful⟩
      rcases (State.turn_eq_next_iff faithful.stack).mp turned with
        ⟨reading, left, expr, read, same, _, _, _, _, rfl⟩
      have going : reading.instruction ≠ .stop := same ▸ Node.instruction_ne_stop expr.node
      rw [inductionHypothesis, disassembleFrom_of_read read going]
      simp only [State.settled, State.consumed]
      generalize disassembleFrom _ reading.rest = listing
      cases listing with
      | error error => rfl
      | ok entries =>
          simp only [Except.map, List.reverse_cons, List.append_assoc, List.singleton_append]

theorem Visited.disassemble_eq {arities : ArityTable} {options : DecompileOptions}
    {bytes : List UInt8} {forest : List Expr} {state : State}
    (visited : Visited arities options bytes forest state) :
    disassemble bytes =
      (disassembleFrom state.offset state.rest).map (state.trace.reverse ++ ·) := by
  have filled : ¬ bytes.isEmpty :=
    fun empty => visited.nonempty (List.isEmpty_iff.mp empty)
  rw [disassemble, if_neg filled, disassembleFrom_of_reaches visited.steps]

theorem exists_disassembleFrom_mark (offset : Nat) (framing : Framing) :
    Exists fun entries => disassembleFrom offset framing.mark = .ok entries := by
  cases framing with
  | unterminated => exact ⟨[], disassembleFrom_nil offset⟩
  | terminated => exact ⟨_, disassembleFrom_of_stop (read_mark_append []) rfl⟩

end Decompiler

/-- Whether the error is that of an instruction which was read and could not be
carried out. -/
def DecompileError.InExecution : DecompileError -> Prop
  | stackUnderflow _ _ _ _ | unknownCommand _ _ _ | stackOverflow _ _ | nestingTooDeep _ _ => True
  | malformed _ | unbalanced _ => False

open Decompiler

/-- How what comes of a buffer and its listing go together. -/
inductive Concord : Except DecompileError Decompiled ->
    Except StreamError (List ListedInstruction) -> Prop
  | malformed {error : StreamError} :
      error.fault ≠ .missingTerminator -> error.fault ≠ .unexpectedEnd ->
      Concord (.error (.malformed error)) (.error error)
  | stopped {error : DecompileError} {offset : Nat}
      {listing : Except StreamError (List ListedInstruction)} :
      error.InExecution -> error.offset? = some offset ->
      (forall later, listing = .error later -> offset < later.offset) ->
      Concord (.error error) listing
  | missing {offset : Nat} {entries : List ListedInstruction} :
      Concord (.error (.malformed ⟨offset, .missingTerminator⟩)) (.ok entries)
  | unbalanced {stack : List Expr} {entries : List ListedInstruction} :
      Concord (.error (.unbalanced stack)) (.ok entries)
  | decompiled {decompiled : Decompiled} {entries : List ListedInstruction} :
      Concord (.ok decompiled) (.ok entries)

private theorem offset_lt_of_map {offset : Nat} {rest : List UInt8}
    {reading : Instruction.Reading} {trace : List ListedInstruction}
    (read : Instruction.read rest = .ok reading) (later : StreamError)
    (failed : (disassembleFrom offset rest).map (trace ++ ·) = .error later) :
    offset < later.offset := by
  cases listing : disassembleFrom offset rest with
  | ok entries =>
      rw [listing] at failed
      cases failed
  | error error =>
      rw [listing] at failed
      cases failed
      exact offset_lt_of_disassembleFrom read listing

theorem concord (arities : ArityTable) (options : DecompileOptions) (bytes : List UInt8) :
    Concord (decompile arities options bytes) (disassemble bytes) := by
  have ending := ends arities options bytes
  generalize decompile arities options bytes = outcome at ending ⊢
  cases ending with
  | empty none =>
      subst none
      exact .malformed nofun nofun
  | failed visited fault =>
      rw [visited.disassemble_eq]
      cases fault with
      | malformed nonempty refused =>
          have single := Instruction.inInstruction_of_read nonempty refused
          rw [disassembleFrom_of_error nonempty refused]
          refine .malformed ?_ ?_
          · rintro rfl
            exact single
          · rintro rfl
            exact single
      | unknownCommand read _ _ => exact .stopped trivial rfl (offset_lt_of_map read)
      | underflow read _ _ _ _ => exact .stopped trivial rfl (offset_lt_of_map read)
      | nesting read _ _ _ _ => exact .stopped trivial rfl (offset_lt_of_map read)
      | overflow read _ _ _ _ _ => exact .stopped trivial rfl (offset_lt_of_map read)
  | trailing visited read stop behind =>
      rw [visited.disassemble_eq, disassembleFrom_of_stop read stop, if_neg behind]
      exact .malformed nofun nofun
  | missing visited ended _ =>
      rw [visited.disassemble_eq, ended, disassembleFrom_nil]
      exact .missing
  | unbalanced visited marked _ _ =>
      rcases exists_disassembleFrom_mark _ _ with ⟨entries, listed⟩
      rw [visited.disassemble_eq, marked, listed]
      exact .unbalanced
  | decompiled visited marked _ =>
      rcases exists_disassembleFrom_mark _ _ with ⟨entries, listed⟩
      rw [visited.disassemble_eq, marked, listed]
      exact .decompiled

theorem fault_ne_unexpectedEnd_of_disassemble {bytes : List UInt8} {error : StreamError}
    (failed : disassemble bytes = .error error) : error.fault ≠ .unexpectedEnd := by
  unfold disassemble at failed
  split at failed
  · cases failed
    exact nofun
  · exact (offset_le_of_disassembleFrom failed).2

/-- A stream error of either is a stream error of the other, but for the
missing end-marker, which only an execution asks for, and for errors that an
execution does not come to because it stops at an earlier instruction.  Neither
reads behind the last byte. -/
theorem decompile_disassemble_agree (arities : ArityTable) (options : DecompileOptions)
    (bytes : List UInt8) :
    (forall error : StreamError, decompile arities options bytes = .error (.malformed error) ->
      error.fault ≠ .missingTerminator -> disassemble bytes = .error error) ∧
    (forall error : StreamError, disassemble bytes = .error error ->
      decompile arities options bytes = .error (.malformed error) ∨
        Exists fun early : DecompileError => Exists fun offset =>
          decompile arities options bytes = .error early ∧ early.InExecution ∧
            early.offset? = some offset ∧ offset < error.offset) ∧
    ((Exists fun decompiled => decompile arities options bytes = .ok decompiled) ∨
        (Exists fun stack => decompile arities options bytes = .error (.unbalanced stack)) ∨
        (Exists fun offset => decompile arities options bytes =
          .error (.malformed ⟨offset, .missingTerminator⟩)) ->
      Exists fun entries => disassemble bytes = .ok entries) ∧
    forall offset, decompile arities options bytes ≠ .error (.malformed ⟨offset, .unexpectedEnd⟩) ∧
      disassemble bytes ≠ .error ⟨offset, .unexpectedEnd⟩ := by
  have together := concord arities options bytes
  generalize decompile arities options bytes = outcome at together
  have noEnd : forall error, disassemble bytes = .error error -> error.fault ≠ .unexpectedEnd :=
    fun _ => fault_ne_unexpectedEnd_of_disassemble
  generalize disassemble bytes = listing at together noEnd
  refine ⟨?_, ?_, ?_, fun offset => ⟨?_, fun failed => noEnd _ failed rfl⟩⟩
  · rintro error rfl present
    cases together with
    | malformed _ _ => rfl
    | stopped impossible _ _ => exact impossible.elim
    | missing => exact absurd rfl present
  · rintro error rfl
    cases together with
    | malformed _ _ => exact Or.inl rfl
    | stopped early place before =>
        exact Or.inr ⟨_, _, rfl, early, place, before error rfl⟩
  · rintro (⟨decompiled, rfl⟩ | ⟨stack, rfl⟩ | ⟨offset, rfl⟩)
    · cases together with
      | decompiled => exact ⟨_, rfl⟩
    · cases together with
      | stopped impossible _ _ => exact impossible.elim
      | unbalanced => exact ⟨_, rfl⟩
    · cases together with
      | malformed marked _ => exact absurd rfl marked
      | stopped impossible _ _ => exact impossible.elim
      | missing => exact ⟨_, rfl⟩
  · rintro rfl
    cases together with
    | malformed _ present => exact present rfl
    | stopped impossible _ _ => exact impossible.elim

/-- An addition without operands stops an execution in front of a cut-off
integer; with a value on the stack both come to the integer. -/
theorem decompile_disassemble_agree_cutInteger :
    disassemble [0x8D, 0x82, 0x00] = .error ⟨1, .truncated 0x82 4 1⟩ ∧
      (decompile .empty {} [0x8D, 0x82, 0x00] = .error (.malformed ⟨1, .truncated 0x82 4 1⟩) ∨
        Exists fun early : DecompileError => Exists fun offset =>
          decompile .empty {} [0x8D, 0x82, 0x00] = .error early ∧ early.InExecution ∧
            early.offset? = some offset ∧ offset < 1) ∧
      decompile .empty {} [0x41, 0x82, 0x00] = .error (.malformed ⟨1, .truncated 0x82 4 1⟩) ∧
      disassemble [0x41, 0x82, 0x00] = .error ⟨1, .truncated 0x82 4 1⟩ ∧
      decompile .empty {} [0xA1] = .error (.unbalanced []) ∧
      Exists fun entries => disassemble [0xA1] = .ok entries := by
  have listed : disassemble [0x8D, 0x82, 0x00] = .error ⟨1, .truncated 0x82 4 1⟩ := by
    decide +kernel
  have executed : decompile .empty {} [0x41, 0x82, 0x00] =
      .error (.malformed ⟨1, .truncated 0x82 4 1⟩) := by decide +kernel
  have left : decompile .empty {} [0xA1] = .error (.unbalanced []) := by decide +kernel
  exact ⟨listed, (decompile_disassemble_agree .empty {} _).2.1 _ listed, executed,
    (decompile_disassemble_agree .empty {} _).1 _ executed nofun, left,
    (decompile_disassemble_agree .empty {} _).2.2.1 (Or.inr (Or.inl ⟨[], left⟩))⟩

end Rpn
