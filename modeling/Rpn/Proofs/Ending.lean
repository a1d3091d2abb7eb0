import Rpn.Proofs.RoundTrip

/-!
# How an execution ends

What comes of a buffer is decided by the last turn of its execution and by the
judgement of what that turn leaves.  `ends` lists all that can come of a buffer
and says of each outcome in which state the last turn began: there the codes of
the trees on the stack are the bytes read so far, so the outcome is tied both
to the bytes before it and to the bytes that brought it about.

In the other direction, `decompile_of_visited_marked`,
`decompile_of_visited_trailing` and `decompile_of_visited_fault` find the
outcome from such a state.
-/

namespace Rpn

namespace Decompiler

/-- A state in which a turn of the execution of a buffer begins, and the trees
on its stack. -/
structure Visited (arities : ArityTable) (options : DecompileOptions) (bytes : List UInt8)
    (forest : List Expr) (state : State) : Prop where
  nonempty : bytes ≠ []
  steps : State.Reaches arities options (.start bytes) state
  faithful : Faithful arities options bytes forest state

namespace Visited

variable {arities : ArityTable} {options : DecompileOptions} {bytes : List UInt8}

theorem exists_of_reaches {state : State} (nonempty : bytes ≠ [])
    (steps : State.Reaches arities options (.start bytes) state) :
    Exists fun forest => Visited arities options bytes forest state := by
  rcases Faithful.of_reaches steps with ⟨forest, faithful⟩
  exact ⟨forest, nonempty, steps, faithful⟩

theorem of_reaches {forest : List Expr} {state : State} (nonempty : bytes ≠ [])
    (steps : State.Reaches arities options (.start bytes) state)
    (stack : state.stack = pile forest) : Visited arities options bytes forest state := by
  rcases Faithful.of_reaches steps with ⟨other, faithful⟩
  cases pile_injective (faithful.stack.symm.trans stack)
  exact ⟨nonempty, steps, faithful⟩

/-- The offset and the bytes left make up the buffer. -/
theorem position {forest : List Expr} {state : State}
    (visited : Visited arities options bytes forest state) :
    state.offset + state.rest.length = bytes.length := by
  have steps := visited.steps
  clear visited
  induction steps with
  | refl => exact Nat.zero_add _
  | @tail before after earlier turned inductionHypothesis =>
      rcases Faithful.of_reaches earlier with ⟨before, faithful⟩
      rcases (State.turn_eq_next_iff faithful.stack).mp turned with
        ⟨reading, _, _, read, _, _, _, _, _, rfl⟩
      have taken := Instruction.length_of_read read
      simp only [State.settled, State.consumed]
      omega

end Visited

/-! ## Judging the last state -/

/-- What comes of the trees left at the end: one is the tree of the buffer, any
other number of them is an error. -/
def judge (framing : Framing) (peak : Nat) : List Expr -> Except DecompileError Decompiled
  | [expr] => .ok ⟨expr, framing, peak⟩
  | forest => .error (.unbalanced forest)

namespace State

variable {options : DecompileOptions} {final : State}

theorem conclude_of_trailing (behind : final.rest ≠ []) :
    final.conclude options .terminated =
      .error (.malformed ⟨final.offset, .trailingBytes final.rest.length⟩) :=
  if_pos ⟨rfl, behind⟩

theorem conclude_of_missing (required : options.requireTerminator = true) :
    final.conclude options .unterminated =
      .error (.malformed ⟨final.offset, .missingTerminator⟩) := by
  have unmarked : ¬ (Framing.unterminated = .terminated ∧ final.rest ≠ []) := nofun
  rw [conclude, if_neg unmarked, if_pos ⟨rfl, required⟩]

/-- With nothing wrong at the end of the buffer, what counts is whether one
tree is left. -/
theorem conclude_of_pile {framing : Framing} {forest : List Expr}
    (stack : final.stack = pile forest) (noTrailing : framing = .terminated -> final.rest = [])
    (noMissing : framing = .unterminated -> options.requireTerminator = false) :
    final.conclude options framing = judge framing final.peak forest := by
  have trailing : ¬ (framing = .terminated ∧ final.rest ≠ []) :=
    fun trailing => trailing.2 (noTrailing trailing.1)
  have missing : ¬ (framing = .unterminated ∧ options.requireTerminator) := by
    rintro ⟨unmarked, required⟩
    exact Bool.false_ne_true ((noMissing unmarked).symm.trans required)
  rw [conclude, if_neg trailing, if_neg missing, stack]
  rcases forest with _ | ⟨first, _ | ⟨second, others⟩⟩
  · rfl
  · rfl
  · have several : (pile (first :: second :: others)).length ≠ 1 := by
      rw [length_pile]
      exact nofun
    split
    · rename_i operand single
      exact absurd (congrArg List.length single) several
    · rw [map_expr_reverse_pile]
      rfl

end State

/-! ## All that can come of a buffer -/

/-- All that can come of a buffer.  The state is the one in which the last turn
begins.  Bytes behind an end-marker are found first, then a missing one, and
the trees left are counted only if neither is wrong. -/
inductive Ends (arities : ArityTable) (options : DecompileOptions) (bytes : List UInt8) :
    Except DecompileError Decompiled -> Prop
  | empty :
      bytes = [] -> Ends arities options bytes (.error (.malformed ⟨0, .empty⟩))
  | failed {forest : List Expr} {last : State} {error : DecompileError} :
      Visited arities options bytes forest last -> State.Fault arities options forest last error ->
      Ends arities options bytes (.error error)
  | trailing {forest : List Expr} {last : State} {reading : Instruction.Reading} :
      Visited arities options bytes forest last -> Instruction.read last.rest = .ok reading ->
      reading.instruction = .stop -> reading.rest ≠ [] ->
      Ends arities options bytes
        (.error (.malformed ⟨last.offset + reading.length, .trailingBytes reading.rest.length⟩))
  | missing {forest : List Expr} {last : State} :
      Visited arities options bytes forest last -> last.rest = [] ->
      options.requireTerminator = true ->
      Ends arities options bytes (.error (.malformed ⟨last.offset, .missingTerminator⟩))
  | unbalanced {forest : List Expr} {last : State} {framing : Framing} :
      Visited arities options bytes forest last -> last.rest = framing.mark ->
      (framing = .unterminated -> options.requireTerminator = false) -> forest.length ≠ 1 ->
      Ends arities options bytes (.error (.unbalanced forest))
  | decompiled {expr : Expr} {last : State} {framing : Framing} :
      Visited arities options bytes [expr] last -> last.rest = framing.mark ->
      (framing = .unterminated -> options.requireTerminator = false) ->
      Ends arities options bytes (.ok ⟨expr, framing, last.peak⟩)

variable {arities : ArityTable} {options : DecompileOptions} {bytes : List UInt8}

private theorem Visited.ends_of_marked {forest : List Expr} {last : State} {framing : Framing}
    (visited : Visited arities options bytes forest last) (marked : last.rest = framing.mark)
    (noMissing : framing = .unterminated -> options.requireTerminator = false) :
    Ends arities options bytes (judge framing last.peak forest) := by
  rcases forest with _ | ⟨first, _ | ⟨second, others⟩⟩
  · exact .unbalanced visited marked noMissing nofun
  · exact .decompiled visited marked noMissing
  · exact .unbalanced visited marked noMissing nofun

theorem read_mark_append (suffix : List UInt8) :
    Instruction.read (Framing.mark .terminated ++ suffix) = .ok ⟨.stop, 1, suffix⟩ :=
  rfl

/-- The end-marker is one byte. -/
theorem rest_of_read_stop {input : List UInt8} {reading : Instruction.Reading}
    (read : Instruction.read input = .ok reading) (stop : reading.instruction = .stop) :
    input = Framing.mark .terminated ++ reading.rest ∧ reading.length = 1 := by
  rcases Instruction.encode_of_read read with ⟨code, encoded, shape, count⟩
  rw [stop] at encoded
  cases encoded
  exact ⟨shape, count⟩

end Decompiler

open Decompiler

theorem ends (arities : ArityTable) (options : DecompileOptions) (bytes : List UInt8) :
    Ends arities options bytes (decompile arities options bytes) := by
  by_cases nonempty : bytes = []
  · subst nonempty
    exact .empty rfl
  · rw [decompile_eq_outcome nonempty]
    rcases State.exists_last arities options (.start bytes) with
      ⟨last, steps, ⟨final, framing, turned⟩ | ⟨final, error, turned⟩⟩
    · rcases Visited.exists_of_reaches nonempty steps with ⟨forest, visited⟩
      rw [State.outcome_of_reaches steps, State.outcome_of_finished turned]
      rcases (State.turn_eq_finished_iff visited.faithful.stack).mp turned with
        ⟨ended, rfl, rfl⟩ | ⟨reading, read, stop, rfl, rfl⟩
      · by_cases required : options.requireTerminator = true
        · rw [State.conclude_of_missing required]
          exact .missing visited ended required
        · have optional : options.requireTerminator = false := Bool.eq_false_iff.mpr required
          have judged : final.conclude options .unterminated =
              judge .unterminated final.peak forest :=
            State.conclude_of_pile visited.faithful.stack nofun fun _ => optional
          rw [judged]
          exact visited.ends_of_marked ended fun _ => optional
      · by_cases behind : reading.rest = []
        · have marked := (rest_of_read_stop read stop).1
          rw [behind, List.append_nil] at marked
          have judged : (last.consumed reading).conclude options .terminated =
              judge .terminated last.peak forest :=
            State.conclude_of_pile visited.faithful.stack (fun _ => behind) nofun
          rw [judged]
          exact visited.ends_of_marked marked nofun
        · rw [State.conclude_of_trailing behind]
          exact .trailing visited read stop behind
    · rcases Visited.exists_of_reaches nonempty steps with ⟨forest, visited⟩
      rw [State.outcome_of_reaches steps, State.outcome_of_failed turned]
      exact .failed visited ((State.turn_eq_failed_iff visited.faithful.stack).mp ⟨final, turned⟩)

/-! ## The outcome from the last state -/

/-- Nothing but the mark of the framing to read: what comes of the buffer is the
judgement of the trees on the stack. -/
theorem decompile_of_visited_marked {arities : ArityTable} {options : DecompileOptions}
    {bytes : List UInt8} {forest : List Expr} {last : State} {framing : Framing}
    (visited : Visited arities options bytes forest last) (marked : last.rest = framing.mark)
    (noMissing : framing = .unterminated -> options.requireTerminator = false) :
    decompile arities options bytes = judge framing last.peak forest := by
  rw [decompile_eq_outcome visited.nonempty, State.outcome_of_reaches visited.steps]
  cases framing with
  | unterminated =>
      have turned : last.turn arities options = .finished last .unterminated :=
        (State.turn_eq_finished_iff visited.faithful.stack).mpr (Or.inl ⟨marked, rfl, rfl⟩)
      rw [State.outcome_of_finished turned]
      exact State.conclude_of_pile visited.faithful.stack nofun noMissing
  | terminated =>
      have read : Instruction.read last.rest = .ok ⟨.stop, 1, []⟩ := marked ▸ read_mark_append []
      have turned : last.turn arities options =
          .finished (last.consumed ⟨.stop, 1, []⟩) .terminated :=
        (State.turn_eq_finished_iff visited.faithful.stack).mpr
          (Or.inr ⟨_, read, rfl, rfl, rfl⟩)
      have judged : (last.consumed ⟨.stop, 1, []⟩).conclude options .terminated =
          judge .terminated last.peak forest :=
        State.conclude_of_pile visited.faithful.stack (fun _ => rfl) noMissing
      rw [State.outcome_of_finished turned, judged]

/-- One tree on the stack and nothing but the mark of the framing to read. -/
theorem decompile_of_visited {arities : ArityTable} {options : DecompileOptions}
    {bytes : List UInt8} {expr : Expr} {last : State} {framing : Framing}
    (visited : Visited arities options bytes [expr] last) (marked : last.rest = framing.mark)
    (noMissing : framing = .unterminated -> options.requireTerminator = false) :
    decompile arities options bytes = .ok ⟨expr, framing, last.peak⟩ :=
  decompile_of_visited_marked visited marked noMissing

theorem decompile_of_visited_fault {arities : ArityTable} {options : DecompileOptions}
    {bytes : List UInt8} {forest : List Expr} {last : State} {error : DecompileError}
    (visited : Visited arities options bytes forest last)
    (fault : State.Fault arities options forest last error) :
    decompile arities options bytes = .error error := by
  rcases (State.turn_eq_failed_iff visited.faithful.stack).mpr fault with ⟨final, turned⟩
  rw [decompile_eq_outcome visited.nonempty, State.outcome_of_reaches visited.steps,
    State.outcome_of_failed turned]

/-- An end-marker with bytes behind it, whatever is on the stack. -/
theorem decompile_of_visited_trailing {arities : ArityTable} {options : DecompileOptions}
    {bytes suffix : List UInt8} {forest : List Expr} {last : State}
    (visited : Visited arities options bytes forest last)
    (marked : last.rest = Framing.mark .terminated ++ suffix) (behind : suffix ≠ []) :
    decompile arities options bytes =
      .error (.malformed ⟨last.offset + 1, .trailingBytes suffix.length⟩) := by
  have read : Instruction.read last.rest =
      .ok ⟨.stop, 1, suffix⟩ := marked ▸ read_mark_append suffix
  have turned : last.turn arities options =
      .finished (last.consumed ⟨.stop, 1, suffix⟩) .terminated :=
    (State.turn_eq_finished_iff visited.faithful.stack).mpr (Or.inr ⟨_, read, rfl, rfl, rfl⟩)
  rw [decompile_eq_outcome visited.nonempty, State.outcome_of_reaches visited.steps,
    State.outcome_of_finished turned, State.conclude_of_trailing behind]
  rfl

end Rpn
