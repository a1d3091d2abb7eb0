import Rpn.Proofs.Listing

/-!
# The trace of an execution and the listing of its buffer

An execution reports every instruction that it has read, also the one at which
it fails, and stops there.  The listing goes on as long as instructions can be
read.  Main statement: the trace messages of an execution are those of the
entries of the listing up to the place where the execution ends
(`traceLog_eq_listing`), and the outcome says which entries these are
(`Decompiler.isTraced`).

Along an execution the listing of the buffer is the trace so far and the
listing of the bytes left (`readable_of_reaches`), so only the last turn has to
be looked at.
-/

namespace Rpn

/-! ## What can be listed -/

/-- The instructions that can be read from an offset on, one after another, up
to the end-marker, the last byte or the first fault. -/
def readableFrom (offset : Nat) (rest : List UInt8) : List ListedInstruction :=
  match _found : Instruction.read rest with
  | .error _ => []
  | .ok reading =>
    ⟨offset, reading.length, reading.instruction⟩ ::
      if reading.instruction = .stop then []
      else readableFrom (offset + reading.length) reading.rest
termination_by rest.length
decreasing_by exact Instruction.rest_lt_of_read _found

/-- The instructions that can be read from the front of a buffer. -/
def readable (bytes : List UInt8) : List ListedInstruction :=
  readableFrom 0 bytes

section

variable {offset : Nat} {rest : List UInt8}

theorem readableFrom_of_error {fault : StreamFault} (refused : Instruction.read rest = .error fault) :
    readableFrom offset rest = [] := by
  rw [readableFrom]
  split
  · rfl
  · rename_i reading found
    cases found.symm.trans refused

theorem readableFrom_of_read {reading : Instruction.Reading}
    (read : Instruction.read rest = .ok reading) :
    readableFrom offset rest =
      ⟨offset, reading.length, reading.instruction⟩ ::
        if reading.instruction = .stop then []
        else readableFrom (offset + reading.length) reading.rest := by
  rw [readableFrom]
  split
  · rename_i fault found
    cases found.symm.trans read
  · rename_i other found
    cases found.symm.trans read
    rfl

/-- Entries are listed at the offset where the listing begins or behind it. -/
theorem offset_le_of_mem_readableFrom {offset : Nat} {rest : List UInt8} {entry : ListedInstruction}
    (member : entry ∈ readableFrom offset rest) : offset ≤ entry.offset := by
  cases read : Instruction.read rest with
  | error fault =>
      rw [readableFrom_of_error read] at member
      cases member
  | ok reading =>
      rw [readableFrom_of_read read] at member
      rcases List.mem_cons.mp member with rfl | later
      · exact Nat.le_refl offset
      · split at later
        · cases later
        · have further := offset_le_of_mem_readableFrom later
          omega
termination_by rest.length
decreasing_by exact Instruction.rest_lt_of_read read

/-- A listing without fault has every instruction that can be read. -/
theorem readableFrom_of_disassembleFrom {offset : Nat} {rest : List UInt8}
    {entries : List ListedInstruction} (listed : disassembleFrom offset rest = .ok entries) :
    readableFrom offset rest = entries := by
  by_cases nonempty : rest = []
  · subst nonempty
    rw [disassembleFrom_nil] at listed
    cases listed
    exact readableFrom_of_error rfl
  · cases read : Instruction.read rest with
    | error fault =>
        rw [disassembleFrom_of_error nonempty read] at listed
        cases listed
    | ok reading =>
        rw [readableFrom_of_read read]
        by_cases stop : reading.instruction = .stop
        · rw [disassembleFrom_of_stop read stop] at listed
          split at listed
          · cases listed
            rw [if_pos stop, stop]
          · cases listed
        · rw [disassembleFrom_of_read read stop] at listed
          rw [if_neg stop]
          cases later : disassembleFrom (offset + reading.length) reading.rest with
          | error error =>
              rw [later] at listed
              cases listed
          | ok others =>
              rw [later] at listed
              cases listed
              rw [readableFrom_of_disassembleFrom later]
termination_by rest.length
decreasing_by exact Instruction.rest_lt_of_read read

end

theorem readable_of_disassemble {bytes : List UInt8} {entries : List ListedInstruction}
    (listed : disassemble bytes = .ok entries) : readable bytes = entries := by
  unfold disassemble at listed
  split at listed
  · cases listed
  · exact readableFrom_of_disassembleFrom listed

namespace Decompiler

/-- Whether an execution with this outcome has traced an entry of the listing.
At the end of the buffer every entry is traced.  An instruction that cannot be
carried out is traced, and one that cannot be read is not. -/
def isTraced : Except DecompileError Decompiled -> ListedInstruction -> Bool
  | .ok _, _ | .error (.unbalanced _), _ => true
  | .error (.malformed ⟨_, .missingTerminator⟩), _ => true
  | .error (.malformed ⟨_, .trailingBytes _⟩), _ => true
  | .error (.malformed error), entry => entry.offset < error.offset
  | .error (.stackUnderflow offset _ _ _), entry => entry.offset ≤ offset
  | .error (.unknownCommand offset _ _), entry => entry.offset ≤ offset
  | .error (.stackOverflow offset _), entry => entry.offset ≤ offset
  | .error (.nestingTooDeep offset _), entry => entry.offset ≤ offset

theorem isTraced_of_inInstruction {error : StreamError} (single : error.fault.InInstruction)
    (entry : ListedInstruction) :
    isTraced (.error (.malformed error)) entry = decide (entry.offset < error.offset) := by
  rcases error with ⟨offset, fault⟩
  cases fault <;> first | rfl | exact single.elim

theorem isTraced_of_inExecution {error : DecompileError} {offset : Nat}
    (executing : error.InExecution) (place : error.offset? = some offset)
    (entry : ListedInstruction) : isTraced (.error error) entry = decide (entry.offset ≤ offset) := by
  cases error <;> first | exact executing.elim | cases place
  all_goals rfl

/-- Whatever is judged at the end of a buffer, every entry is traced. -/
theorem isTraced_conclude (options : DecompileOptions) (final : State) (framing : Framing)
    (entry : ListedInstruction) : isTraced (final.conclude options framing) entry = true := by
  unfold State.conclude
  split
  · rfl
  · split
    · rfl
    · split
      · rfl
      · rfl

variable {arities : ArityTable} {options : DecompileOptions} {bytes : List UInt8}

/-! ## The last turn -/

/-- The state that a turn leads to, even if it is the last. -/
def Turn.state : Turn -> State
  | next following => following
  | finished final _ | failed final _ => final

namespace State

variable {state final : State} {error : DecompileError}

/-- A turn traces the instruction that it reads, whatever comes of it. -/
theorem trace_turn_of_read {reading : Instruction.Reading}
    (read : Instruction.read state.rest = .ok reading) :
    (state.turn arities options).state.trace = (state.consumed reading).trace := by
  cases shape : state.rest with
  | nil => exact absurd shape (Instruction.ne_nil_of_read read)
  | cons opcode operand =>
      rw [turn_of_read shape read]
      split
      · rfl
      · rfl
      · split
        · rfl
        · rfl

theorem state_turn_of_error {fault : StreamFault}
    (refused : Instruction.read state.rest = .error fault) :
    (state.turn arities options).state = state := by
  cases shape : state.rest with
  | nil => simp only [turn, shape, Turn.state]
  | cons opcode operand =>
      rw [shape] at refused
      simp only [turn, shape, refused, Turn.state]

/-- A failing turn leaves the state as it was if the instruction cannot be read,
and otherwise it has traced the instruction. -/
theorem failed_cases {forest : List Expr} (piled : state.stack = pile forest)
    (turned : state.turn arities options = .failed final error) :
    (Exists fun fault => Instruction.read state.rest = .error fault ∧ fault.InInstruction ∧
      error = .malformed ⟨state.offset, fault⟩ ∧ final = state) ∨
    (Exists fun reading => Instruction.read state.rest = .ok reading ∧ error.InExecution ∧
      error.offset? = some state.offset ∧ final.trace = (state.consumed reading).trace) := by
  have reached : (state.turn arities options).state = final := congrArg Turn.state turned
  have traced {reading : Instruction.Reading} (read : Instruction.read state.rest = .ok reading) :
      final.trace = (state.consumed reading).trace := reached ▸ trace_turn_of_read read
  cases (turn_eq_failed_iff piled).mp ⟨final, turned⟩ with
  | malformed nonempty refused =>
      exact Or.inl ⟨_, refused, Instruction.inInstruction_of_read nonempty refused, rfl,
        reached.symm.trans (state_turn_of_error refused)⟩
  | unknownCommand read _ _ => exact Or.inr ⟨_, read, trivial, rfl, traced read⟩
  | underflow read _ _ _ _ => exact Or.inr ⟨_, read, trivial, rfl, traced read⟩
  | nesting read _ _ _ _ => exact Or.inr ⟨_, read, trivial, rfl, traced read⟩
  | overflow read _ _ _ _ _ => exact Or.inr ⟨_, read, trivial, rfl, traced read⟩

/-- Wherever an execution has come to, what can be listed is the trace so far
and what can be listed from there. -/
theorem readable_of_reaches (steps : Reaches arities options (.start bytes) state) :
    readable bytes = state.trace.reverse ++ readableFrom state.offset state.rest ∧
      forall entry, entry ∈ state.trace -> entry.offset < state.offset := by
  induction steps with
  | refl => exact ⟨rfl, nofun⟩
  | tail earlier turned inductionHypothesis =>
      rcases Faithful.of_reaches earlier with ⟨forest, faithful⟩
      rcases (turn_eq_next_iff faithful.stack).mp turned with
        ⟨reading, left, expr, read, same, _, _, _, _, rfl⟩
      rcases inductionHypothesis with ⟨listing, before⟩
      have going : reading.instruction ≠ .stop := same ▸ expr.node.instruction_ne_stop
      have positive := Instruction.length_pos_of_read read
      rw [readableFrom_of_read read, if_neg going] at listing
      refine ⟨?_, ?_⟩
      · rw [listing]
        simp only [settled, consumed, List.reverse_cons, List.append_assoc, List.singleton_append]
      · intro entry member
        rcases List.mem_cons.mp member with rfl | earlier
        · exact Nat.lt_add_of_pos_right positive
        · exact Nat.lt_add_right reading.length (before entry earlier)

end State

/-- The trace is a first part of what can be listed, and the outcome says where
it ends. -/
structure Divides (bytes : List UInt8) (outcome : Except DecompileError Decompiled)
    (trace later : List ListedInstruction) : Prop where
  listing : readable bytes = trace ++ later
  traced : forall entry, entry ∈ trace -> isTraced outcome entry = true
  untraced : forall entry, entry ∈ later -> isTraced outcome entry = false
  fault : forall error offset, outcome = .error error -> error.InExecution ->
    error.offset? = some offset -> Exists fun entry => entry ∈ trace ∧ entry.offset = offset

theorem Divides.filter_eq {outcome : Except DecompileError Decompiled}
    {trace later : List ListedInstruction} (divides : Divides bytes outcome trace later) :
    (readable bytes).filter (isTraced outcome) = trace := by
  rw [divides.listing, List.filter_append, List.filter_eq_self.mpr divides.traced,
    List.filter_eq_nil_iff.mpr fun entry member =>
      Bool.eq_false_iff.mp (divides.untraced entry member), List.append_nil]

theorem run_eq_of_reaches {last : State} (nonempty : bytes ≠ [])
    (steps : State.Reaches arities options (.start bytes) last) :
    run arities options bytes =
      match last.run arities options with
      | (final, .error error) => ⟨final.trace.reverse, .error error⟩
      | (final, .ok framing) => ⟨final.trace.reverse, final.conclude options framing⟩ := by
  have filled : ¬ bytes.isEmpty := fun empty => nonempty (List.isEmpty_iff.mp empty)
  have same := State.run_of_reaches steps
  rcases ended : last.run arities options with ⟨final, error | framing⟩
  · rw [ended] at same
    simp only [run, if_neg filled, same]
  · rw [ended] at same
    simp only [run, if_neg filled, same]

section

variable {last : State}
  (listing : readable bytes = last.trace.reverse ++ readableFrom last.offset last.rest)
include listing

/-- At the end of the buffer, or behind the end-marker, nothing is left to list. -/
theorem Divides.of_finished {final : State} {framing : Framing}
    (finished : last.rest = [] ∧ final = last ∧ framing = .unterminated ∨
      Exists fun reading => Instruction.read last.rest = .ok reading ∧
        reading.instruction = .stop ∧ final = last.consumed reading ∧ framing = .terminated) :
    Divides bytes (final.conclude options framing) final.trace.reverse [] where
  listing := by
    rw [listing, List.append_nil]
    rcases finished with ⟨ended, rfl, _⟩ | ⟨reading, read, stop, rfl, _⟩
    · rw [ended, readableFrom_of_error rfl, List.append_nil]
    · rw [readableFrom_of_read read, if_pos stop]
      exact List.reverse_cons.symm
  traced entry _ := isTraced_conclude options final framing entry
  untraced := nofun
  fault error offset judged executing place := by
    have all := isTraced_conclude options final framing ⟨offset + 1, 0, .stop⟩
    rw [judged, isTraced_of_inExecution executing place] at all
    exact absurd (of_decide_eq_true all) (Nat.not_succ_le_self offset)

variable (before : forall entry, entry ∈ last.trace -> entry.offset < last.offset)
include before

/-- What cannot be read is not listed either. -/
theorem Divides.of_refused {fault : StreamFault}
    (refused : Instruction.read last.rest = .error fault) (single : fault.InInstruction) :
    Divides bytes (.error (.malformed ⟨last.offset, fault⟩)) last.trace.reverse [] where
  listing := by rw [listing, readableFrom_of_error refused]
  traced entry member := by
    rw [isTraced_of_inInstruction single]
    exact decide_eq_true (before entry (List.mem_reverse.mp member))
  untraced := nofun
  fault error offset same executing := by
    cases same
    exact executing.elim

/-- An instruction that cannot be carried out is the last one traced. -/
theorem Divides.of_failed {error : DecompileError} {reading : Instruction.Reading}
    (read : Instruction.read last.rest = .ok reading) (executing : error.InExecution)
    (place : error.offset? = some last.offset) :
    Divides bytes (.error error) (last.consumed reading).trace.reverse
      (if reading.instruction = .stop then []
        else readableFrom (last.offset + reading.length) reading.rest) where
  listing := by
    rw [listing, readableFrom_of_read read, State.consumed, List.reverse_cons, List.append_assoc]
    rfl
  traced entry member := by
    rw [isTraced_of_inExecution executing place]
    apply decide_eq_true
    rcases List.mem_cons.mp (List.mem_reverse.mp member) with rfl | earlier
    · exact Nat.le_refl _
    · exact Nat.le_of_lt (before entry earlier)
  untraced entry member := by
    rw [isTraced_of_inExecution executing place]
    apply decide_eq_false
    have positive := Instruction.length_pos_of_read read
    split at member
    · cases member
    · have further := offset_le_of_mem_readableFrom member
      omega
  fault other offset same _ elsewhere := by
    cases same
    cases place.symm.trans elsewhere
    exact ⟨_, List.mem_reverse.mpr List.mem_cons_self, rfl⟩

end

theorem exists_divides (arities : ArityTable) (options : DecompileOptions) (bytes : List UInt8) :
    Exists fun later => Divides bytes (run arities options bytes).outcome
      (run arities options bytes).trace later := by
  by_cases nonempty : bytes = []
  · subst nonempty
    refine ⟨[], readableFrom_of_error rfl, nofun, nofun, ?_⟩
    rintro error offset same executing -
    cases same
    exact executing.elim
  · rcases State.exists_last arities options (.start bytes) with ⟨last, steps, ending⟩
    rcases Visited.exists_of_reaches nonempty steps with ⟨forest, visited⟩
    rcases State.readable_of_reaches steps with ⟨listing, before⟩
    rw [run_eq_of_reaches nonempty steps, State.run_eq]
    rcases ending with ⟨final, framing, turned⟩ | ⟨final, error, turned⟩
    · rw [turned]
      have finished := (State.turn_eq_finished_iff visited.faithful.stack).mp turned
      exact ⟨[], .of_finished listing finished⟩
    · rw [turned]
      rcases State.failed_cases visited.faithful.stack turned with
        ⟨fault, refused, single, rfl, rfl⟩ | ⟨reading, read, executing, place, traced⟩
      · exact ⟨[], .of_refused listing before refused single⟩
      · have divides := Divides.of_failed listing before read executing place
        rw [← traced] at divides
        exact ⟨_, divides⟩

/-- The messages of an execution are those of its trace, and one that is no
trace message at most. -/
theorem filter_log (execution : Run) (length : Nat) :
    (execution.log length).filter (fun message => message.level = .trace) =
      execution.trace.map traceMessage := by
  have traced : (execution.trace.map traceMessage).filter
      (fun message => message.level = .trace) = execution.trace.map traceMessage := by
    apply List.filter_eq_self.mpr
    intro message member
    rcases List.mem_map.mp member with ⟨entry, _, rfl⟩
    rfl
  have concluded : (conclusionMessage? length execution.outcome).toList.filter
      (fun message => message.level = .trace) = [] := by
    rcases execution.outcome with error | decompiled
    · cases error <;> rfl
    · rfl
  rw [Run.log, List.filter_append, traced, concluded, List.append_nil]

end Decompiler

open Decompiler

/-- The trace messages of an execution are those of a first part of the
instructions that can be listed, in order: an offset and the text of the
listing.  The outcome says which entries these are.  A buffer that is listed
without fault is listed with all of them. -/
theorem traceLog_eq_listing (arities : ArityTable) (options : DecompileOptions)
    (bytes : List UInt8) :
    (((run arities options bytes).log bytes.length).filter fun message => message.level = .trace) =
      ((readable bytes).filter (isTraced (decompile arities options bytes))).map
        (fun entry => ⟨.trace, Hex.paddedOffset entry.offset ++ " " ++ entry.instruction.text⟩) ∧
    (readable bytes).filter (isTraced (decompile arities options bytes)) <+: readable bytes ∧
    (forall error offset, decompile arities options bytes = .error error -> error.InExecution ->
      error.offset? = some offset ->
        Exists fun entry => entry ∈ readable bytes ∧ entry.offset = offset) ∧
    forall entries, disassemble bytes = .ok entries -> readable bytes = entries := by
  rcases exists_divides arities options bytes with ⟨later, divides⟩
  have traced : (readable bytes).filter (isTraced (decompile arities options bytes)) = _ :=
    divides.filter_eq
  refine ⟨?_, ?_, ?_, fun entries => readable_of_disassemble⟩
  · rw [filter_log, traced]
    rfl
  · rw [traced, divides.listing]
    exact List.prefix_append _ later
  · intro error offset failed executing place
    rcases divides.fault error offset failed executing place with ⟨entry, member, same⟩
    refine ⟨entry, ?_, same⟩
    rw [divides.listing]
    exact List.mem_append_left later member

/-- A sum with one operand: the instructions behind it are listed and not
traced. -/
theorem traceLog_eq_listing_lonelySum :
    let bytes := [0x41, 0x8D, 0x42, 0xA1]
    decompile .empty {} bytes = .error (.stackUnderflow 1 0x8D 2 1) ∧
      (((run .empty {} bytes).log bytes.length).filter fun message => message.level = .trace) =
        [⟨.trace, "0x0000 PUSH_INLINE 1"⟩, ⟨.trace, "0x0001 ADD"⟩] ∧
      (Exists fun entry => entry ∈ readable bytes ∧ entry.offset = 1) ∧
      readable bytes = [⟨0, 1, .push (.int 1 .inline)⟩, ⟨1, 1, .binary .add⟩,
        ⟨2, 1, .push (.int 2 .inline)⟩, ⟨3, 1, .stop⟩] := by
  intro bytes
  have failed : decompile .empty {} bytes = .error (.stackUnderflow 1 0x8D 2 1) := by
    decide +kernel
  have listed : disassemble bytes = .ok [⟨0, 1, .push (.int 1 .inline)⟩, ⟨1, 1, .binary .add⟩,
      ⟨2, 1, .push (.int 2 .inline)⟩, ⟨3, 1, .stop⟩] := by decide +kernel
  rcases traceLog_eq_listing .empty {} bytes with ⟨log, _, fault, whole⟩
  refine ⟨failed, ?_, fault _ 1 failed trivial rfl, whole _ listed⟩
  rw [log, failed, whole _ listed]
  decide +kernel

end Rpn
