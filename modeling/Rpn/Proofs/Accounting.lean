import Rpn.Proofs.Attempts
import Rpn.Proofs.HeightMachine

/-!
# The account of an assembler and the stack of an execution

An assembler accounts for its steps by their net effects.  It does not look for
operands, and where none are left it stays at zero.  An execution takes the
operands off its stack before it puts the result there.  The two ways agree on
any steps whose operands are present, trees or not: the result of an operator
or a function call is never higher than the deepest of its operands was, so
leaving out the way down loses no peak (`Assembler.account_of_supplied`).

Main statement: if the bytes of a run of attempts are carried out to their end
at all, then a stack limit is exceeded exactly if it is less than the peak that
the assembler reports (`Assembler.overflows_iff_lt_peak`).
-/

namespace Rpn
namespace Assembler

/-- Whether every node finds its operands on a stack that has the height when
the steps begin. -/
def Supplied : Nat -> List Step -> Prop
  | _, [] => True
  | height, .node node :: rest => node.arity ≤ height ∧ Supplied (height - node.arity + 1) rest
  | height, .stop :: rest => Supplied height rest

/-- The account of a node whose operands are present is what becomes of the
stack. -/
theorem account_of_supplied (assembler : Assembler) {node : Node}
    (supplied : node.arity ≤ assembler.height)
    (bounded : assembler.height ≤ assembler.peak) :
    (assembler.account node).height = assembler.height - node.arity + 1 ∧
      (assembler.account node).peak =
        max assembler.peak (assembler.height - node.arity + 1) := by
  cases node with
  | command bank id args => exact ⟨rfl, rfl⟩
  | _ =>
      simp only [Node.arity] at supplied
      simp only [account, put, take, Node.arity]
      omega

theorem peak_le_attempt (assembler : Assembler) (step : Step) :
    assembler.peak ≤ (assembler.attempt step).2.peak := by
  cases encoded : step.instruction.encode with
  | error error =>
      simp only [assembler.attempt_of_error encoded, Nat.le_refl]
  | ok bytes =>
      rw [assembler.attempt_of_encode encoded]
      cases step with
      | stop => exact Nat.le_refl _
      | node node =>
          cases node <;>
            simp only [settle, account, write, put, take] <;>
            omega

theorem peak_le_attemptAll (assembler : Assembler) (steps : List Step) :
    assembler.peak ≤ (assembler.attemptAll steps).peak := by
  induction steps generalizing assembler with
  | nil => exact Nat.le_refl _
  | cons step rest inductionHypothesis =>
      exact Nat.le_trans (assembler.peak_le_attempt step)
        (inductionHypothesis (assembler.attempt step).2)

end Assembler

namespace HeightMachine

open Assembler

section Turns

variable {arities : ArityTable} {stackLimit : Nat} {bytes : List UInt8} {machine : HeightMachine}

theorem run_of_next {following : HeightMachine}
    (turned : machine.turn arities stackLimit bytes = .next following) :
    machine.run arities stackLimit bytes = following.run arities stackLimit bytes := by
  rw [run]
  split
  · rename_i other found
    cases found.symm.trans turned
    rfl
  · rename_i final framing found
    cases found.symm.trans turned
  · rename_i error found
    cases found.symm.trans turned

theorem run_of_finished {final : HeightMachine} {framing : Framing}
    (turned : machine.turn arities stackLimit bytes = .finished final framing) :
    machine.run arities stackLimit bytes = .ok (final, framing) := by
  rw [run]
  split
  · rename_i other found
    cases found.symm.trans turned
  · rename_i final framing found
    cases found.symm.trans turned
    rfl
  · rename_i error found
    cases found.symm.trans turned

theorem run_of_failed {error : DecompileError}
    (turned : machine.turn arities stackLimit bytes = .failed error) :
    machine.run arities stackLimit bytes = .error error := by
  rw [run]
  split
  · rename_i other found
    cases found.symm.trans turned
  · rename_i final framing found
    cases found.symm.trans turned
  · rename_i error found
    cases found.symm.trans turned
    rfl

end Turns

/-- One turn in front of the code of a node. -/
theorem exists_turn_of_node {arities : ArityTable} (stackLimit : Nat) {bytes : List UInt8}
    {machine : HeightMachine} {node : Node} {rest : List UInt8}
    (ahead : bytes.drop machine.offset = node.code ++ rest) (encodable : node.Encodable)
    (known : node.Known arities) :
    Exists fun opcode => machine.turn arities stackLimit bytes =
      if machine.height < node.arity then
        .failed (.stackUnderflow machine.offset opcode node.arity machine.height)
      else if stackLimit ≤ machine.height - node.arity then
        .failed (.stackOverflow machine.offset stackLimit)
      else
        .next ⟨machine.offset + node.code.length, machine.height - node.arity + 1,
          max machine.peak (machine.height - node.arity + 1)⟩ := by
  have read := Node.read_code_append encodable rest
  have asked : demand arities machine.offset node.instruction = .ok (some node.arity) := by
    rw [demand_eq, Decompiler.nodeOf_eq_some_iff.mpr ⟨rfl, known⟩]
    rfl
  rw [← ahead] at read
  cases shape : bytes.drop machine.offset with
  | nil => exact absurd shape (Instruction.ne_nil_of_read read)
  | cons opcode operand =>
      rw [shape] at read
      exact ⟨opcode, by simp only [turn, shape, read, asked]⟩

/-- A machine in front of the codes of steps, with the height and the peak that
an assembler has accounted for so far. -/
structure Follows (bytes : List UInt8) (steps : List Step) (assembler : Assembler)
    (machine : HeightMachine) : Prop where
  ahead : bytes.drop machine.offset = steps.flatMap Step.code
  height : machine.height = assembler.height
  peak : machine.peak = assembler.peak
  bounded : assembler.height ≤ assembler.peak

namespace Follows

variable {arities : ArityTable} {stackLimit : Nat} {bytes : List UInt8}
  {machine : HeightMachine} {assembler : Assembler} {steps : List Step}

theorem next {node : Node} (follows : Follows bytes (.node node :: steps) assembler machine)
    (representable : node.Representable) (supplied : node.arity ≤ machine.height) :
    Follows bytes steps (assembler.attempt (.node node)).2
      ⟨machine.offset + node.code.length, machine.height - node.arity + 1,
        max machine.peak (machine.height - node.arity + 1)⟩ := by
  have encoded : (Step.node node).instruction.encode = .ok (Step.node node).code :=
    Step.encode_of_representable representable
  have account := (assembler.write node.code).account_of_supplied (follows.height ▸ supplied)
    follows.bounded
  rw [assembler.attempt_of_encode encoded]
  refine ⟨?_, ?_, ?_, ?_⟩
  · show bytes.drop (machine.offset + node.code.length) = steps.flatMap Step.code
    rw [← List.drop_drop, follows.ahead, List.flatMap_cons]
    exact List.drop_left
  · exact (congrArg (· - node.arity + 1) follows.height).trans account.1.symm
  · refine Eq.trans ?_ account.2.symm
    rw [follows.peak, follows.height]
    rfl
  · show ((assembler.write node.code).account node).height ≤
      ((assembler.write node.code).account node).peak
    rw [account.1, account.2]
    exact Nat.le_max_right _ _

/-- An end-marker with nothing behind it, or the end of the buffer. -/
theorem run_of_ended {framing : Framing} (follows : Follows bytes steps assembler machine)
    (ended : steps.flatMap Step.code = framing.mark) :
    machine.run arities stackLimit bytes = .ok (machine, framing) := by
  have ahead := follows.ahead.trans ended
  apply run_of_finished
  cases framing with
  | unterminated => simp only [turn, ahead, Framing.mark]
  | terminated =>
      have read := Decompiler.read_mark_append []
      rw [List.append_nil] at read
      simp only [Framing.mark] at ahead read
      simp only [turn, ahead, read, demand, if_true]

/-- Steps at which nothing stops an execution find their operands. -/
theorem supplied_of_run (follows : Follows bytes steps assembler machine)
    (representable : forall step, step ∈ steps -> step.Representable)
    (last : Instruction.StopOnlyLast (steps.map Step.instruction))
    (known : forall node, Step.node node ∈ steps -> node.Known arities)
    (unhindered : forall error, machine.run arities stackLimit bytes = .error error ->
      ¬ error.InExecution) :
    Supplied machine.height steps := by
  induction steps generalizing assembler machine with
  | nil => trivial
  | cons step rest inductionHypothesis =>
      have parts := List.forall_mem_cons.mp representable
      cases step with
      | stop =>
          have ended : rest = [] := List.map_eq_nil_iff.mp (last.1 rfl)
          subst ended
          trivial
      | node node =>
          rcases exists_turn_of_node stackLimit follows.ahead
            (Node.encodable_iff.mpr parts.1) (known node List.mem_cons_self) with
            ⟨opcode, turned⟩
          by_cases short : machine.height < node.arity
          · rw [if_pos short] at turned
            exact absurd trivial (unhindered _ (run_of_failed turned))
          · rw [if_neg short] at turned
            have supplied := Nat.le_of_not_lt short
            split at turned
            · exact absurd trivial (unhindered _ (run_of_failed turned))
            · rw [run_of_next turned] at unhindered
              exact ⟨supplied, inductionHypothesis (follows.next parts.1 supplied) parts.2 last.2
                (fun node member => known node (List.mem_cons_of_mem _ member)) unhindered⟩

/-- Steps that find their operands are carried out to their end exactly if the
stack limit is not less than the peak of the account. -/
theorem run_of_supplied (follows : Follows bytes steps assembler machine)
    (representable : forall step, step ∈ steps -> step.Representable)
    (last : Instruction.StopOnlyLast (steps.map Step.instruction))
    (known : forall node, Step.node node ∈ steps -> node.Known arities)
    (supplied : Supplied machine.height steps) (room : machine.peak ≤ stackLimit) :
    (stackLimit < (assembler.attemptAll steps).peak ->
      Exists fun offset =>
        machine.run arities stackLimit bytes = .error (.stackOverflow offset stackLimit)) ∧
    ((assembler.attemptAll steps).peak ≤ stackLimit ->
      Exists fun final => Exists fun framing =>
        machine.run arities stackLimit bytes = .ok (final, framing) ∧
          final.peak = (assembler.attemptAll steps).peak) := by
  induction steps generalizing assembler machine with
  | nil =>
      have peak : (assembler.attemptAll []).peak = machine.peak := follows.peak.symm
      rw [peak]
      refine ⟨fun exceeds => absurd exceeds (Nat.not_lt_of_le room), fun _ => ?_⟩
      exact ⟨machine, .unterminated, follows.run_of_ended rfl, rfl⟩
  | cons step rest inductionHypothesis =>
      have parts := List.forall_mem_cons.mp representable
      cases step with
      | stop =>
          have ended : rest = [] := List.map_eq_nil_iff.mp (last.1 rfl)
          subst ended
          have peak : (assembler.attemptAll [.stop]).peak = machine.peak := follows.peak.symm
          rw [peak]
          refine ⟨fun exceeds => absurd exceeds (Nat.not_lt_of_le room), fun _ => ?_⟩
          exact ⟨machine, .terminated, follows.run_of_ended rfl, rfl⟩
      | node node =>
          have following := follows.next parts.1 supplied.1
          have later : (assembler.attemptAll (.node node :: rest)).peak =
              ((assembler.attempt (.node node)).2.attemptAll rest).peak := rfl
          rcases exists_turn_of_node stackLimit follows.ahead
            (Node.encodable_iff.mpr parts.1) (known node List.mem_cons_self) with
            ⟨opcode, turned⟩
          rw [if_neg (Nat.not_lt_of_le supplied.1)] at turned
          by_cases full : stackLimit ≤ machine.height - node.arity
          · -- The result would stand one above the limit, and the peak never falls.
            rw [if_pos full] at turned
            have grown := (assembler.attempt (.node node)).2.peak_le_attemptAll rest
            have reached := following.peak
            simp only at reached
            exact ⟨fun _ => ⟨machine.offset, run_of_failed turned⟩, fun within => by omega⟩
          · rw [if_neg full] at turned
            rw [run_of_next turned, later]
            exact inductionHypothesis following parts.2 last.2
              (fun node member => known node (List.mem_cons_of_mem _ member)) supplied.2
              (by simp only; omega)

end Follows

/-- A machine that has come to the end predicts no overflow, and its own peak
for what is decompiled. -/
theorem peak_of_holds_conclude {options : DecompileOptions} {bytes : List UInt8}
    {machine : HeightMachine} {framing : Framing} {outcome : Except DecompileError Decompiled}
    (holds : (machine.conclude options bytes framing).Holds outcome) :
    (forall offset limit, outcome ≠ .error (.stackOverflow offset limit)) ∧
      forall decompiled, outcome = .ok decompiled -> decompiled.peak = machine.peak := by
  unfold conclude at holds
  split at holds
  · have missing : outcome = .error (.malformed ⟨bytes.length, .missingTerminator⟩) := holds
    subst missing
    exact ⟨nofun, nofun⟩
  · split at holds
    · rcases holds with ⟨expr, rfl⟩
      refine ⟨nofun, ?_⟩
      rintro decompiled ⟨⟩
      rfl
    · rcases holds with ⟨stack, _, rfl⟩
      exact ⟨nofun, nofun⟩

end HeightMachine

namespace Assembler

open HeightMachine

/-- Steps that are all accepted, with nothing behind an end-marker, and a table
that has the argument counts which came with their commands.  If their bytes
are carried out to the end under some limits, then under any stack limit they
overflow the stack exactly if the limit is less than the peak of the
assembler, and what is decompiled has that peak.  The nesting limit is to be
out of reach. -/
theorem overflows_iff_lt_peak {steps : List Step} {arities : ArityTable}
    {ample : DecompileOptions} (some : steps ≠ []) (accepted : empty.accepted steps = steps)
    (last : Instruction.StopOnlyLast (steps.map Step.instruction))
    (known : forall node, Step.node node ∈ steps -> node.Known arities)
    (deep : (empty.attemptAll steps).bytes.toList.length ≤ ample.nestingLimit)
    (completed :
      (Exists fun decompiled =>
        decompile arities ample (empty.attemptAll steps).bytes.toList = .ok decompiled) ∨
      Exists fun stack =>
        decompile arities ample (empty.attemptAll steps).bytes.toList = .error (.unbalanced stack))
    {options : DecompileOptions}
    (deepToo : (empty.attemptAll steps).bytes.toList.length ≤ options.nestingLimit) :
    ((Exists fun offset => Exists fun limit =>
        decompile arities options (empty.attemptAll steps).bytes.toList =
          .error (.stackOverflow offset limit)) ↔
      options.stackLimit < (empty.attemptAll steps).peak) ∧
    forall decompiled,
      decompile arities options (empty.attemptAll steps).bytes.toList = .ok decompiled ->
        decompiled.peak = (empty.attemptAll steps).peak := by
  have representable : forall step, step ∈ steps -> step.Representable := by
    intro step member
    exact representable_of_mem_accepted (accepted.symm ▸ member)
  have bytes : (empty.attemptAll steps).bytes.toList = steps.flatMap Step.code :=
    toList_bytes_attemptAll empty representable
  have nonempty : (empty.attemptAll steps).bytes.toList ≠ [] := by
    rcases List.exists_mem_of_ne_nil _ some with ⟨step, member⟩
    rw [bytes]
    intro none
    exact code_ne_nil (representable step member) (List.flatMap_eq_nil_iff.mp none step member)
  have follows : Follows (empty.attemptAll steps).bytes.toList steps empty {} :=
    ⟨bytes, rfl, rfl, Nat.le_refl 0⟩
  have unhindered : forall error,
      HeightMachine.run arities ample.stackLimit (empty.attemptAll steps).bytes.toList {} =
        .error error -> ¬ error.InExecution := by
    intro error failed stopped
    have holds : (predict arities ample _).Holds (decompile arities ample _) :=
      predict_holds nonempty deep
    rw [predict, predictFrom, failed] at holds
    have outcome : decompile arities ample (empty.attemptAll steps).bytes.toList = .error error :=
      holds
    rcases completed with ⟨decompiled, done⟩ | ⟨stack, left⟩
    · cases done.symm.trans outcome
    · cases left.symm.trans outcome
      exact stopped
  have supplied : Supplied 0 steps :=
    follows.supplied_of_run representable last known unhindered
  have holds : (predict arities options _).Holds (decompile arities options _) :=
    predict_holds nonempty deepToo
  rcases follows.run_of_supplied representable last known supplied
    (Nat.zero_le options.stackLimit) with ⟨overflowing, completing⟩
  by_cases exceeds : options.stackLimit < (empty.attemptAll steps).peak
  · rcases overflowing exceeds with ⟨offset, failed⟩
    rw [predict, predictFrom, failed] at holds
    have outcome : decompile arities options (empty.attemptAll steps).bytes.toList =
        .error (.stackOverflow offset options.stackLimit) := holds
    refine ⟨⟨fun _ => exceeds, fun _ => ⟨offset, options.stackLimit, outcome⟩⟩, ?_⟩
    intro decompiled done
    cases done.symm.trans outcome
  · rcases completing (Nat.le_of_not_lt exceeds) with ⟨final, framing, done, peak⟩
    rw [predict, predictFrom, done] at holds
    rcases peak_of_holds_conclude holds with ⟨noOverflow, reported⟩
    refine ⟨⟨?_, fun impossible => absurd impossible exceeds⟩, ?_⟩
    · rintro ⟨offset, limit, overflow⟩
      exact absurd overflow (noOverflow offset limit)
    · intro decompiled done
      exact (reported decompiled done).trans peak

/-- A number and the negation of a command without arguments.  Two values are
left, so the steps are those of no tree. -/
def leftoverSteps : List Step :=
  [.node (.const (.int 1 .inline)), .node (.command 6 12 0), .node (.unary .neg)]

/-- With a call of the number on the negation there is one tree. -/
theorem overflows_iff_lt_peak_leftoverSteps :
    (empty.attemptAll leftoverSteps).peak = 2 ∧
      (Exists fun offset => Exists fun limit =>
        decompile (.ofRows [(6, 12, 0)]) ⟨1, 8, false⟩
          (empty.attemptAll leftoverSteps).bytes.toList = .error (.stackOverflow offset limit)) ∧
      (¬ Exists fun offset => Exists fun limit =>
        decompile (.ofRows [(6, 12, 0)]) ⟨2, 8, false⟩
          (empty.attemptAll leftoverSteps).bytes.toList = .error (.stackOverflow offset limit)) ∧
      (empty.attemptAll (leftoverSteps ++ [.node (.function 1), .stop])).peak = 2 ∧
      forall decompiled,
        decompile (.ofRows [(6, 12, 0)]) ⟨2, 10, true⟩
            (empty.attemptAll (leftoverSteps ++ [.node (.function 1), .stop])).bytes.toList =
          .ok decompiled -> decompiled.peak = 2 := by
  have known : forall node, Step.node node ∈ leftoverSteps ++ [.node (.function 1), .stop] ->
      node.Known (.ofRows [(6, 12, 0)]) := by
    intro node member
    simp only [leftoverSteps, List.cons_append, List.nil_append, List.mem_cons, Step.node.injEq,
      reduceCtorEq, List.not_mem_nil, or_false] at member
    rcases member with rfl | rfl | rfl | rfl
    · trivial
    · rfl
    · trivial
    · trivial
  have left : decompile (.ofRows [(6, 12, 0)]) ⟨8, 8, false⟩
      (empty.attemptAll leftoverSteps).bytes.toList =
        .error (.unbalanced [.const (.int 1 .inline), .unary .neg (.command 6 12 [])]) := by
    decide +kernel
  have whole : decompile (.ofRows [(6, 12, 0)]) ⟨10, 10, false⟩
      (empty.attemptAll (leftoverSteps ++ [.node (.function 1), .stop])).bytes.toList =
        .ok ⟨.function (.const (.int 1 .inline)) [.unary .neg (.command 6 12 [])],
          .terminated, 2⟩ := by decide +kernel
  have peak : (empty.attemptAll leftoverSteps).peak = 2 := by decide
  have wholePeak : (empty.attemptAll (leftoverSteps ++ [.node (.function 1), .stop])).peak = 2 := by
    decide
  have leftKnown : forall node, Step.node node ∈ leftoverSteps ->
      node.Known (.ofRows [(6, 12, 0)]) :=
    fun node member => known node (List.mem_append_left _ member)
  have some : leftoverSteps ≠ [] := List.cons_ne_nil _ _
  have wholeSome : leftoverSteps ++ [.node (.function 1), .stop] ≠ [] := List.cons_ne_nil _ _
  refine ⟨peak, ?_, ?_, wholePeak, ?_⟩
  · exact (overflows_iff_lt_peak some (by decide) (by decide) leftKnown (by decide)
      (Or.inr ⟨_, left⟩) (by decide)).1.mpr (by decide)
  · exact (overflows_iff_lt_peak some (by decide) (by decide) leftKnown (by decide)
      (Or.inr ⟨_, left⟩) (by decide)).1.not.mpr (by decide)
  · rw [← wholePeak]
    exact (overflows_iff_lt_peak wholeSome (by decide) (by decide) known (by decide)
      (Or.inl ⟨_, whole⟩) (by decide)).2

end Assembler
end Rpn
