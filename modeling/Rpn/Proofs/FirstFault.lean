import Rpn.Proofs.Continuation
import Rpn.Proofs.Listing
import Rpn.Proofs.Refusal

/-!
# The first fault of a buffer

An execution that stops at an instruction has carried out everything in front
of it and has looked at nothing behind it.  Main statement: the error is that
of the first instruction at fault, nothing is wrong with the bytes in front of
it, and no bytes behind it make it go away (`lasting_error`).

This holds of the errors whose instruction is settled by bytes that are there.
An operand that is cut off and a string without a terminator are faults that
more bytes may mend, so they are left out.
-/

namespace Rpn

/-- Where an instruction of a buffer begins, if all instructions in front of it
can be read and none of them is the end-marker. -/
inductive Boundary (bytes : List UInt8) : Nat -> Prop
  | front : Boundary bytes 0
  | next {offset : Nat} {reading : Instruction.Reading} :
      Boundary bytes offset -> Instruction.read (bytes.drop offset) = .ok reading ->
      reading.instruction ≠ .stop -> Boundary bytes (offset + reading.length)

/-- Whether more bytes cannot mend the fault. -/
def StreamFault.Lasting : StreamFault -> Prop
  | unrecognizedOpcode _ | invalidString => True
  | empty | unexpectedEnd | truncated _ _ _ | unterminatedString | trailingBytes _
  | missingTerminator => False

/-- Whether the error is that of an instruction, and one that more bytes cannot
mend. -/
def DecompileError.Lasting : DecompileError -> Prop
  | malformed error => error.fault.Lasting
  | stackUnderflow _ _ _ _ | unknownCommand _ _ _ | stackOverflow _ _ | nestingTooDeep _ _ => True
  | unbalanced _ => False

namespace Decompiler

variable {arities : ArityTable} {options : DecompileOptions} {bytes : List UInt8}

theorem State.boundary_of_reaches {state : State}
    (steps : State.Reaches arities options (.start bytes) state) (nonempty : bytes ≠ []) :
    Boundary bytes state.offset := by
  induction steps with
  | refl => exact .front
  | tail earlier turned inductionHypothesis =>
      rcases Visited.exists_of_reaches nonempty earlier with ⟨forest, visited⟩
      rcases (State.turn_eq_next_iff visited.faithful.stack).mp turned with
        ⟨reading, left, expr, read, same, _, _, _, _, rfl⟩
      rw [visited.rest_eq_drop] at read
      exact inductionHypothesis.next read (same ▸ expr.node.instruction_ne_stop)

/-! ## The instruction at fault -/

namespace State.Fault

variable {forest : List Expr} {state : State} {error : DecompileError}

theorem offset?_eq (fault : Fault arities options forest state error) :
    error.offset? = some state.offset := by
  cases fault <;> rfl

/-- A lasting error is settled by bytes that are there. -/
theorem exists_settled (fault : Fault arities options forest state error)
    (lasting : error.Lasting) :
    Exists fun count => Instruction.settled? state.rest = some count := by
  cases fault with
  | malformed _ refused =>
      have reason := Instruction.read_eq_error_iff.mp refused
      rw [Instruction.settled?, refused]
      generalize state.rest = input at reason
      cases reason with
      | ended => exact lasting.elim
      | unknown _ => exact ⟨1, rfl⟩
      | truncated _ _ _ => exact lasting.elim
      | unterminated _ _ => exact lasting.elim
      | noText _ found _ =>
          simp only [List.tail_cons, found, Option.map_some]
          exact ⟨_, rfl⟩
  | unknownCommand read _ _ => exact ⟨_, Instruction.settled?_of_read read⟩
  | underflow read _ _ _ _ => exact ⟨_, Instruction.settled?_of_read read⟩
  | nesting read _ _ _ _ => exact ⟨_, Instruction.settled?_of_read read⟩
  | overflow read _ _ _ _ _ => exact ⟨_, Instruction.settled?_of_read read⟩

/-- The instruction is at fault in front of any bytes, as long as the bytes
that settle it are there. -/
theorem withRest {count : Nat} (fault : Fault arities options forest state error)
    (settled : Instruction.settled? state.rest = some count) (suffix : List UInt8) :
    Fault arities options forest (state.withRest (state.rest.take count ++ suffix)) error := by
  have again : forall {reading : Instruction.Reading},
      Instruction.read state.rest = .ok reading ->
        Instruction.read (state.rest.take count ++ suffix) =
          .ok ⟨reading.instruction, reading.length, suffix⟩ := by
    intro reading read
    cases (Instruction.settled?_of_read read).symm.trans settled
    exact Instruction.read_take_append_of_read read suffix
  cases fault with
  | malformed nonempty refused =>
      have positive := (Instruction.settled?_bounds settled).1
      refine .malformed ?_ (Instruction.read_take_append_of_error refused settled suffix)
      exact List.append_ne_nil_of_left_ne_nil
        (List.take_eq_nil_iff.not.mpr (not_or.mpr ⟨by omega, nonempty⟩)) suffix
  | unknownCommand read command unknown => exact .unknownCommand (again read) command unknown
  | @underflow reading opcode operand node read shape same known short =>
      have positive := (Instruction.settled?_bounds settled).1
      have first : state.rest.take count ++ suffix = opcode :: (operand.take (count - 1) ++ suffix) := by
        rw [shape, ← Nat.sub_add_cancel positive, List.take_succ_cons, Nat.add_sub_cancel,
          List.cons_append]
      exact .underflow (again read) first same known short
  | nesting read same known split deep => exact .nesting (again read) same known split deep
  | overflow read same known split shallow full =>
      exact .overflow (again read) same known split shallow full

end State.Fault

/-- Whether an end-marker is required matters at the end only. -/
theorem State.reaches_of_optional {strict : Bool} {state following : State}
    (steps : State.Reaches arities options state following) :
    State.Reaches arities { options with requireTerminator := strict } state following :=
  steps

end Decompiler

open Decompiler

variable {arities : ArityTable} {options : DecompileOptions} {bytes : List UInt8}

/-- The bytes that an execution has read come to an end without a fault.  Only
the number of trees may be wrong. -/
theorem Decompiler.Visited.decompile_take {forest : List Expr} {state : State}
    (visited : Visited arities options bytes forest state) (moved : state.offset ≠ 0) :
    decompile arities { options with requireTerminator := false } (bytes.take state.offset) =
      judge .unterminated state.peak forest := by
  have nonempty : bytes.take state.offset ++ [] ≠ [] := by
    rw [List.append_nil]
    exact List.take_eq_nil_iff.not.mpr (not_or.mpr ⟨moved, visited.nonempty⟩)
  have shorter := visited.withRest nonempty
  have optional : Visited arities { options with requireTerminator := false }
      (bytes.take state.offset ++ []) forest (state.withRest []) :=
    .of_reaches nonempty (State.reaches_of_optional shorter.steps) shorter.faithful.stack
  rw [List.append_nil] at optional
  have judged : _ = judge .unterminated (state.withRest []).peak forest :=
    decompile_of_visited_marked optional rfl fun _ => rfl
  exact judged

/-- What comes of bytes that are cut off in front of an instruction. -/
inductive Intact : Except DecompileError Decompiled -> Prop
  | decompiled (decompiled : Decompiled) : Intact (.ok decompiled)
  | unbalanced (stack : List Expr) : Intact (.error (.unbalanced stack))

theorem intact_judge (framing : Framing) (peak : Nat) (forest : List Expr) :
    Intact (judge framing peak forest) := by
  rcases forest with _ | ⟨first, _ | ⟨second, others⟩⟩
  · exact .unbalanced _
  · exact .decompiled _
  · exact .unbalanced _

/-- An error that more bytes cannot mend is found at the first instruction at
fault.  The bytes in front of that instruction are decompiled, but for the
number of trees, and if there are none the buffer is empty.  As long as the
bytes that settle the instruction are there, the error is the same whatever
comes behind them. -/
theorem lasting_error {error : DecompileError} {offset : Nat}
    (failed : decompile arities options bytes = .error error) (lasting : error.Lasting)
    (place : error.offset? = some offset) :
    offset < bytes.length ∧ Boundary bytes offset ∧
    (if offset = 0 then
      decompile arities { options with requireTerminator := false } (bytes.take offset) =
        .error (.malformed ⟨0, .empty⟩)
    else
      Intact (decompile arities { options with requireTerminator := false }
        (bytes.take offset))) ∧
    Exists fun count => Instruction.settled? (bytes.drop offset) = some count ∧ 0 < count ∧
      offset + count ≤ bytes.length ∧ forall suffix,
        decompile arities options (bytes.take (offset + count) ++ suffix) = .error error := by
  have ending := ends arities options bytes
  rw [failed] at ending
  cases ending with
  | empty _ => exact lasting.elim
  | trailing _ _ _ _ => exact lasting.elim
  | missing _ _ _ => exact lasting.elim
  | unbalanced _ _ _ _ => exact lasting.elim
  | @failed forest last _ visited fault =>
      cases fault.offset?_eq.symm.trans place
      rcases fault.exists_settled lasting with ⟨count, settled⟩
      rcases Instruction.settled?_bounds settled with ⟨positive, within⟩
      have position := visited.position
      refine ⟨by omega, State.boundary_of_reaches visited.steps visited.nonempty, ?_,
        count, visited.rest_eq_drop ▸ settled, positive, by omega, fun suffix => ?_⟩
      · split
        · rename_i first
          rw [first, List.take_zero]
          rfl
        · rename_i moved
          rw [visited.decompile_take moved]
          exact intact_judge _ _ _
      · have whole : bytes.take last.offset ++ (last.rest.take count ++ suffix) =
            bytes.take (last.offset + count) ++ suffix := by
          rw [visited.rest_eq_drop, ← List.append_assoc, ← List.take_add]
        have kept : last.rest.take count ++ suffix ≠ [] := by
          apply List.append_ne_nil_of_left_ne_nil
          refine List.take_eq_nil_iff.not.mpr (not_or.mpr ⟨by omega, ?_⟩)
          exact List.length_pos_iff.mp (by omega)
        rw [← whole]
        exact decompile_of_visited_fault
          (visited.withRest (List.append_ne_nil_of_right_ne_nil _ kept))
          (fault.withRest settled suffix)

/-- A string of half a surrogate pair, with an unknown opcode behind it.  The
opcode, the unit and the terminator are the five bytes that settle it. -/
theorem lasting_error_loneSurrogate :
    decompile .empty {} [0x41, 0xA5, 0x00, 0xD8, 0x00, 0x00, 0xFF] =
        .error (.malformed ⟨1, .invalidString⟩) ∧
      Boundary [0x41, 0xA5, 0x00, 0xD8, 0x00, 0x00, 0xFF] 1 ∧
      Intact (decompile .empty {} [0x41]) ∧
      forall suffix, decompile .empty {} ([0x41, 0xA5, 0x00, 0xD8, 0x00, 0x00] ++ suffix) =
        .error (.malformed ⟨1, .invalidString⟩) := by
  have failed : decompile .empty {} [0x41, 0xA5, 0x00, 0xD8, 0x00, 0x00, 0xFF] =
      .error (.malformed ⟨1, .invalidString⟩) := by decide +kernel
  rcases lasting_error failed trivial rfl with ⟨_, boundary, intact, count, settled, _, _, same⟩
  have known : Instruction.settled? [0xA5, 0x00, 0xD8, 0x00, 0x00, 0xFF] = some 5 := by
    decide +kernel
  cases known.symm.trans settled
  exact ⟨failed, boundary, intact, same⟩

end Rpn
