import Rpn.Proofs.CodeListing
import Rpn.Proofs.Encodability

/-!
# Attempts one after another

An assembler may be asked for anything, in any order and without regard to the
values on the stack.  It refuses what the wire format cannot hold.  Whether a
step is refused depends on the step alone, and a refusal changes nothing, the
simulated height included, so that no later peak gives it away.

A run of attempts is therefore the run of its accepted steps.  Their codes
stand one after another in the bytes, and reading finds each of them again:
that is the main statement (`disassemble_of_attempts`).  Operand bytes that
look like opcodes do no harm, because a code is read as a whole wherever it
stands.
-/

namespace Rpn

/-- Whether nothing comes behind the end-marker. -/
def Instruction.StopOnlyLast : List Instruction -> Prop
  | [] => True
  | instruction :: rest => (instruction = .stop -> rest = []) ∧ StopOnlyLast rest

instance Instruction.instDecidableStopOnlyLast : DecidablePred Instruction.StopOnlyLast
  | [] => inferInstanceAs (Decidable True)
  | instruction :: rest =>
    have := instDecidableStopOnlyLast rest
    inferInstanceAs (Decidable ((instruction = .stop -> rest = []) ∧ StopOnlyLast rest))

namespace Assembler

/-! ## One attempt -/

namespace Step

/-- The instruction that is asked for.  The argument count of a command is not
part of it. -/
def instruction : Step -> Instruction
  | node asked => asked.instruction
  | stop => .stop

/-- Whether the wire format can hold what is asked for. -/
def Representable : Step -> Prop
  | node asked => asked.Representable
  | stop => True

instance instDecidableRepresentable : DecidablePred Representable
  | node asked => inferInstanceAs (Decidable asked.Representable)
  | stop => inferInstanceAs (Decidable True)

/-- The bytes of the step, none if the wire format cannot hold it. -/
def code : Step -> List UInt8
  | node asked => asked.code
  | stop => Framing.mark .terminated

theorem encode_of_representable {step : Step} (representable : step.Representable) :
    step.instruction.encode = .ok step.code := by
  cases step with
  | node node => exact Node.encode_of_encodable (Node.encodable_iff.mpr representable)
  | stop => rfl

theorem representable_of_encode {step : Step} {bytes : List UInt8}
    (encoded : step.instruction.encode = .ok bytes) : step.Representable := by
  cases step with
  | node node => exact Node.encodable_iff.mp ⟨bytes, encoded⟩
  | stop => trivial

end Step

/-- The change of the simulated stack by a step.  The end-marker makes none. -/
def settle (assembler : Assembler) : Step -> Assembler
  | .node node => assembler.account node
  | .stop => assembler

theorem bytes_settle (assembler : Assembler) (step : Step) :
    (assembler.settle step).bytes = assembler.bytes := by
  cases step with
  | node node => cases node <;> rfl
  | stop => rfl

theorem attempt_of_encode (assembler : Assembler) {step : Step} {bytes : List UInt8}
    (encoded : step.instruction.encode = .ok bytes) :
    assembler.attempt step = (none, (assembler.write bytes).settle step) := by
  cases step with
  | node node =>
      have known : node.instruction.encode = .ok bytes := encoded
      simp only [attempt_node, known, settle]
  | stop =>
      cases encoded
      rfl

theorem attempt_of_error (assembler : Assembler) {step : Step} {error : EncodingError}
    (refused : step.instruction.encode = .error error) :
    assembler.attempt step = (some error, assembler) := by
  cases step with
  | node node =>
      have known : node.instruction.encode = .error error := refused
      simp only [attempt_node, known]
  | stop => cases refused

/-- A step is refused exactly if the wire format cannot hold it, whatever was
written before. -/
theorem attempt_eq_none_iff (assembler : Assembler) (step : Step) :
    (assembler.attempt step).1 = none ↔ step.Representable := by
  cases encoded : step.instruction.encode with
  | ok bytes =>
      rw [assembler.attempt_of_encode encoded]
      exact ⟨fun _ => Step.representable_of_encode encoded, fun _ => rfl⟩
  | error error =>
      rw [assembler.attempt_of_error encoded]
      constructor
      · intro impossible
        cases impossible
      · intro representable
        cases encoded.symm.trans (Step.encode_of_representable representable)

theorem attempt_of_refused {assembler : Assembler} {step : Step}
    (refused : (assembler.attempt step).1 ≠ none) : (assembler.attempt step).2 = assembler := by
  cases encoded : step.instruction.encode with
  | ok bytes =>
      rw [assembler.attempt_of_encode encoded] at refused
      exact absurd rfl refused
  | error error => rw [assembler.attempt_of_error encoded]

/-- What an accepted step adds to the bytes. -/
theorem toList_bytes_attempt {assembler : Assembler} {step : Step}
    (representable : step.Representable) :
    (assembler.attempt step).2.bytes.toList = assembler.bytes.toList ++ step.code := by
  rw [assembler.attempt_of_encode (Step.encode_of_representable representable)]
  simp only [bytes_settle, write, Array.toList_appendList]

end Assembler

/-! ## Asking for an instruction -/

namespace Instruction

open Assembler

/-- The step that asks for the instruction, with an argument count in case it
is a command. -/
def step (args : Nat) : Instruction -> Step
  | push constant => .node (.const constant)
  | param slot => .node (.param slot)
  | unary op => .node (.unary op)
  | binary op => .node (.binary op)
  | call count => .node (.function count)
  | command bank id => .node (.command bank id args)
  | stop => .stop

theorem instruction_step (args : Nat) (instruction : Instruction) :
    (instruction.step args).instruction = instruction := by
  cases instruction <;> rfl

/-- Whether an assembler writes these bytes for the instruction, whatever it
has written before and whatever argument count comes with a command. -/
def WrittenAs (instruction : Instruction) (bytes : List UInt8) : Prop :=
  forall (assembler : Assembler) (args : Nat),
    (assembler.attempt (instruction.step args)).1 = none ∧
      (assembler.attempt (instruction.step args)).2.bytes.toList =
        assembler.bytes.toList ++ bytes

/-- The step of an instruction that has an encoding is accepted for it. -/
theorem step_of_encode {instruction : Instruction} {bytes : List UInt8}
    (encoded : instruction.encode = .ok bytes) (args : Nat) :
    (instruction.step args).Representable ∧ (instruction.step args).code = bytes := by
  rw [← instruction.instruction_step args] at encoded
  have representable := Step.representable_of_encode encoded
  have code := (Step.encode_of_representable representable).symm.trans encoded
  exact ⟨representable, Except.ok.inj code⟩

theorem writtenAs_iff {instruction : Instruction} {bytes : List UInt8} :
    instruction.WrittenAs bytes ↔ instruction.encode = .ok bytes := by
  constructor
  · intro written
    rcases written empty 0 with ⟨accepted, added⟩
    have representable := (empty.attempt_eq_none_iff _).mp accepted
    have encoded := Step.encode_of_representable representable
    rw [instruction_step] at encoded
    rw [toList_bytes_attempt representable] at added
    rw [encoded, List.append_cancel_left added]
  · intro encoded assembler args
    rcases step_of_encode encoded args with ⟨representable, code⟩
    refine ⟨(assembler.attempt_eq_none_iff _).mpr representable, ?_⟩
    rw [toList_bytes_attempt representable, code]

end Instruction

namespace Assembler

/-! ## Many attempts -/

/-- The steps that are not refused when one after another is attempted. -/
def accepted (assembler : Assembler) : List Step -> List Step
  | [] => []
  | step :: rest =>
    match assembler.attempt step with
    | (none, following) => step :: following.accepted rest
    | (some _, following) => following.accepted rest

theorem accepted_cons_of_representable {assembler : Assembler} {step : Step} {rest : List Step}
    (representable : step.Representable) :
    assembler.accepted (step :: rest) = step :: (assembler.attempt step).2.accepted rest := by
  rw [accepted, assembler.attempt_of_encode (Step.encode_of_representable representable)]

theorem accepted_cons_of_refused {assembler : Assembler} {step : Step} {rest : List Step}
    (refused : ¬ step.Representable) :
    assembler.accepted (step :: rest) = assembler.accepted rest := by
  cases encoded : step.instruction.encode with
  | ok bytes => exact absurd (Step.representable_of_encode encoded) refused
  | error error => rw [accepted, assembler.attempt_of_error encoded]

theorem accepted_eq_filter (assembler : Assembler) (steps : List Step) :
    assembler.accepted steps = steps.filter fun step => step.Representable := by
  induction steps generalizing assembler with
  | nil => rfl
  | cons step rest inductionHypothesis =>
      by_cases representable : step.Representable
      · rw [accepted_cons_of_representable representable, inductionHypothesis,
          List.filter_cons, if_pos (decide_eq_true representable)]
      · rw [accepted_cons_of_refused representable, inductionHypothesis,
          List.filter_cons, if_neg (decide_eq_true_iff.not.mpr representable)]

theorem representable_of_mem_accepted {assembler : Assembler} {steps : List Step} {step : Step}
    (member : step ∈ assembler.accepted steps) : step.Representable := by
  rw [accepted_eq_filter] at member
  exact of_decide_eq_true (List.mem_filter.mp member).2

/-- A run is the run of its accepted steps. -/
theorem attemptAll_accepted (assembler : Assembler) (steps : List Step) :
    assembler.attemptAll (assembler.accepted steps) = assembler.attemptAll steps := by
  induction steps generalizing assembler with
  | nil => rfl
  | cons step rest inductionHypothesis =>
      by_cases representable : step.Representable
      · rw [accepted_cons_of_representable representable]
        exact inductionHypothesis (assembler.attempt step).2
      · have refused := (assembler.attempt_eq_none_iff step).not.mpr representable
        have unchanged : assembler.attemptAll (step :: rest) = assembler.attemptAll rest :=
          congrArg (attemptAll · rest) (attempt_of_refused refused)
        rw [accepted_cons_of_refused representable, inductionHypothesis, unchanged]

theorem toList_bytes_attemptAll (assembler : Assembler) {steps : List Step}
    (representable : forall step, step ∈ steps -> step.Representable) :
    (assembler.attemptAll steps).bytes.toList =
      assembler.bytes.toList ++ steps.flatMap Step.code := by
  induction steps generalizing assembler with
  | nil => rw [List.flatMap_nil, List.append_nil]; rfl
  | cons step rest inductionHypothesis =>
      have parts := List.forall_mem_cons.mp representable
      have later := inductionHypothesis (assembler.attempt step).2 parts.2
      rw [toList_bytes_attempt parts.1, List.append_assoc, ← List.flatMap_cons] at later
      exact later

/-! ## The listing of a run -/

/-- The codes of steps are listed as the instructions that were asked for. -/
theorem exists_disassembleFrom_code {steps : List Step}
    (representable : forall step, step ∈ steps -> step.Representable)
    (last : Instruction.StopOnlyLast (steps.map Step.instruction)) (offset : Nat) :
    Exists fun entries => disassembleFrom offset (steps.flatMap Step.code) = .ok entries ∧
      entries.map ListedInstruction.instruction = steps.map Step.instruction := by
  induction steps generalizing offset with
  | nil => exact ⟨[], disassembleFrom_nil offset, rfl⟩
  | cons step rest inductionHypothesis =>
      have parts := List.forall_mem_cons.mp representable
      cases step with
      | stop =>
          have ended : rest = [] := List.map_eq_nil_iff.mp (last.1 rfl)
          subst ended
          exact exists_disassembleFrom_mark_instructions offset .terminated
      | node node =>
          have encodable : node.Encodable := Node.encodable_iff.mpr parts.1
          have read := Node.read_code_append encodable (rest.flatMap Step.code)
          rcases inductionHypothesis parts.2 last.2 (offset + node.code.length) with
            ⟨entries, listed, instructions⟩
          refine ⟨⟨offset, node.code.length, node.instruction⟩ :: entries, ?_, ?_⟩
          · rw [List.flatMap_cons]
            exact (disassembleFrom_of_read read node.instruction_ne_stop).trans
              (congrArg (Except.map _) listed)
          · simp only [List.map_cons, instructions, Step.instruction]

theorem code_ne_nil {step : Step} (representable : step.Representable) : step.code ≠ [] := by
  have read := Instruction.read_append_of_encode (Step.encode_of_representable representable) []
  exact List.length_pos_iff.mp (Instruction.length_pos_of_read read)

/-- The bytes of a run are listed as the steps that were accepted, if there are
any and nothing was accepted behind the end-marker.  A step is refused exactly
if the wire format cannot hold it, a refusal leaves the assembler as it is, and
without the refused steps the run comes to the same bytes and the same peak. -/
theorem disassemble_of_attempts (steps : List Step) :
    (empty.accepted steps ≠ [] ->
      Instruction.StopOnlyLast ((empty.accepted steps).map Step.instruction) ->
      Exists fun entries => disassemble (empty.attemptAll steps).bytes.toList = .ok entries ∧
        entries.map ListedInstruction.instruction =
          (empty.accepted steps).map Step.instruction) ∧
    (forall (assembler : Assembler) (step : Step),
      ((assembler.attempt step).1 ≠ none ↔ ¬ step.Representable) ∧
        ((assembler.attempt step).1 ≠ none -> (assembler.attempt step).2 = assembler)) ∧
    empty.attemptAll (empty.accepted steps) = empty.attemptAll steps := by
  refine ⟨?_, ?_, empty.attemptAll_accepted steps⟩
  · intro some last
    have representable : forall step, step ∈ empty.accepted steps -> step.Representable :=
      fun _ => representable_of_mem_accepted
    have bytes : (empty.attemptAll steps).bytes.toList =
        (empty.accepted steps).flatMap Step.code := by
      rw [← empty.attemptAll_accepted, toList_bytes_attemptAll empty representable]
      rfl
    have filled : ¬ ((empty.accepted steps).flatMap Step.code).isEmpty := by
      rcases List.exists_mem_of_ne_nil _ some with ⟨step, member⟩
      rw [List.isEmpty_iff, List.flatMap_eq_nil_iff]
      exact fun every => code_ne_nil (representable step member) (every step member)
    rw [bytes, disassemble, if_neg filled]
    exact exists_disassembleFrom_code representable last 0
  · intro assembler step
    exact ⟨(assembler.attempt_eq_none_iff step).not, attempt_of_refused⟩

/-- An addition without operands, a string whose first byte is that of the
end-marker, and a command, with steps between and behind them that the wire
format cannot hold. -/
def mixedSteps : List Step :=
  [.node (.const (.int 64 .inline)), .node (.binary .add), .node (.const (.string "¡")),
    .node (.param 8), .node (.function 7), .node (.command 6 12 3), .stop,
    .node (.const (.string "a\x00"))]

theorem disassemble_of_attempts_mixedSteps :
    empty.accepted mixedSteps =
        [.node (.binary .add), .node (.const (.string "¡")), .node (.command 6 12 3), .stop] ∧
      (Exists fun entries =>
        disassemble (empty.attemptAll mixedSteps).bytes.toList = .ok entries ∧
          entries.map ListedInstruction.instruction =
            [.binary .add, .push (.string "¡"), .command 6 12, .stop]) ∧
      ((empty.attempt (.node (.param 8))).1 ≠ none ∧
        (empty.attempt (.node (.param 8))).2 = empty) ∧
      empty.attemptAll mixedSteps = empty.attemptAll
        [.node (.binary .add), .node (.const (.string "¡")), .node (.command 6 12 3), .stop] := by
  have known : empty.accepted mixedSteps =
      [.node (.binary .add), .node (.const (.string "¡")), .node (.command 6 12 3), .stop] := by
    decide +kernel
  rcases disassemble_of_attempts mixedSteps with ⟨listed, refusals, same⟩
  rw [known] at listed same
  have refused : (empty.attempt (.node (.param 8))).1 ≠ none :=
    (refusals empty (.node (.param 8))).1.mpr (by decide)
  exact ⟨known, listed nofun (by decide), ⟨refused, (refusals empty _).2 refused⟩, same.symm⟩

end Assembler
end Rpn
