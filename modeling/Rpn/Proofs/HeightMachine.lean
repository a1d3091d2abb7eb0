import Rpn.Proofs.RoundTrip

/-!
# An execution without trees

What an instruction takes from the stack depends on its opcode and on the table
of commands, never on the values.  So a machine that keeps the height of the
stack instead of the trees stops at the same instruction for the same reason.
Main statement: as long as the nesting limit cannot be reached, the outcome of
the machine is that of the execution (`predict_holds`).

The nesting limit cannot be reached where it is at least the length of the
buffer: a tree is no deeper than the number of bytes read, because every level
of it has an instruction of its own.
-/

namespace Rpn

/-- A position in a buffer, the height of the stack there, and the greatest
height on the way. -/
structure HeightMachine where
  offset : Nat := 0
  height : Nat := 0
  peak : Nat := 0

namespace HeightMachine

/-- The number of values that an instruction takes before it puts one.  The
end-marker puts none. -/
def demand (arities : ArityTable) (offset : Nat) : Instruction ->
    Except DecompileError (Option Nat)
  | .push _ | .param _ => .ok (some 0)
  | .unary _ => .ok (some 1)
  | .binary _ => .ok (some 2)
  | .call args => .ok (some (args + 1))
  | .command bank id =>
    match arities bank id with
    | none => .error (.unknownCommand offset bank id)
    | some args => .ok (some args)
  | .stop => .ok none

inductive Turn
  | next (machine : HeightMachine)
  | finished (machine : HeightMachine) (framing : Framing)
  | failed (error : DecompileError)

/-- Read the instruction at the position and move the height by what it takes
and puts. -/
def turn (arities : ArityTable) (stackLimit : Nat) (bytes : List UInt8)
    (machine : HeightMachine) : Turn :=
  match bytes.drop machine.offset with
  | [] => .finished machine .unterminated
  | opcode :: operand =>
    match Instruction.read (opcode :: operand) with
    | .error fault => .failed (.malformed ⟨machine.offset, fault⟩)
    | .ok reading =>
      let following := machine.offset + reading.length
      match demand arities machine.offset reading.instruction with
      | .error error => .failed error
      | .ok none =>
        if reading.rest = [] then .finished machine .terminated
        else .failed (.malformed ⟨following, .trailingBytes reading.rest.length⟩)
      | .ok (some needed) =>
        if machine.height < needed then
          .failed (.stackUnderflow machine.offset opcode needed machine.height)
        else if stackLimit ≤ machine.height - needed then
          .failed (.stackOverflow machine.offset stackLimit)
        else
          let height := machine.height - needed + 1
          .next ⟨following, height, max machine.peak height⟩

/-- Reading moves the position on, so the machine comes to an end. -/
theorem remaining_lt_of_turn {arities : ArityTable} {stackLimit : Nat} {bytes : List UInt8}
    {machine following : HeightMachine}
    (turned : machine.turn arities stackLimit bytes = .next following) :
    bytes.length - following.offset < bytes.length - machine.offset := by
  unfold turn at turned
  split at turned
  · cases turned
  · rename_i opcode operand shape
    have within : machine.offset < bytes.length := by
      have count := congrArg List.length shape
      rw [List.length_drop, List.length_cons] at count
      omega
    split at turned
    · cases turned
    · rename_i reading read
      have positive := Instruction.length_pos_of_read read
      simp only at turned
      split at turned
      · cases turned
      · split at turned <;> cases turned
      · split at turned
        · cases turned
        · split at turned
          · cases turned
          · cases turned
            simp only
            omega

def run (arities : ArityTable) (stackLimit : Nat) (bytes : List UInt8)
    (machine : HeightMachine) : Except DecompileError (HeightMachine × Framing) :=
  match _turned : machine.turn arities stackLimit bytes with
  | .next following => run arities stackLimit bytes following
  | .finished final framing => .ok (final, framing)
  | .failed error => .error error
termination_by bytes.length - machine.offset
decreasing_by exact remaining_lt_of_turn _turned

/-- What can be said of a decompilation without knowing a tree. -/
inductive Prediction
  | failed (error : DecompileError)
  | unbalanced (height : Nat)
  | decompiled (framing : Framing) (peak : Nat)
  deriving DecidableEq

/-- Whether an outcome is as predicted. -/
def Prediction.Holds : Prediction -> Except DecompileError Decompiled -> Prop
  | failed error, outcome => outcome = .error error
  | unbalanced height, outcome =>
    Exists fun stack : List Expr => stack.length = height ∧ outcome = .error (.unbalanced stack)
  | decompiled framing peak, outcome =>
    Exists fun expr => outcome = .ok ⟨expr, framing, peak⟩

/-- Judge where the machine ended: the end-marker may be required, and one
value must be left. -/
def conclude (options : DecompileOptions) (bytes : List UInt8) (final : HeightMachine)
    (framing : Framing) : Prediction :=
  if framing = .unterminated ∧ options.requireTerminator then
    .failed (.malformed ⟨bytes.length, .missingTerminator⟩)
  else if final.height = 1 then .decompiled framing final.peak
  else .unbalanced final.height

def predictFrom (arities : ArityTable) (options : DecompileOptions) (bytes : List UInt8)
    (machine : HeightMachine) : Prediction :=
  match machine.run arities options.stackLimit bytes with
  | .error error => .failed error
  | .ok (final, framing) => final.conclude options bytes framing

/-- What comes of the machine on a buffer. -/
def predict (arities : ArityTable) (options : DecompileOptions) (bytes : List UInt8) :
    Prediction :=
  predictFrom arities options bytes {}

/-! ## The machine and the execution agree -/

open Decompiler

theorem demand_eq (arities : ArityTable) (offset : Nat) (instruction : Instruction) :
    demand arities offset instruction =
      (nodeOf arities offset instruction).map (Option.map Node.arity) := by
  cases instruction with
  | command bank id =>
      simp only [demand, nodeOf]
      cases arities bank id with
      | none => rfl
      | some args => rfl
  | _ => rfl

/-- A machine at the same place as an execution, with the height of its stack.
No tree on the stack is deeper than the number of bytes read. -/
structure Mirrors (bytes : List UInt8) (machine : HeightMachine) (forest : List Expr)
    (state : State) : Prop where
  rest : state.rest = bytes.drop machine.offset
  offset : state.offset = machine.offset
  within : machine.offset ≤ bytes.length
  stack : state.stack = pile forest
  height : machine.height = forest.length
  peak : machine.peak = state.peak
  shallow : forall expr, expr ∈ forest -> expr.depth ≤ machine.offset

/-- What a turn of the machine says of a turn of the execution.  The execution
finds bytes behind an end-marker only when it is judged. -/
inductive Agree (bytes : List UInt8) : Turn -> Decompiler.Turn -> Prop
  | next {machine : HeightMachine} {forest : List Expr} {state : State} :
      Mirrors bytes machine forest state -> Agree bytes (.next machine) (.next state)
  | finished {machine : HeightMachine} {framing : Framing} {forest : List Expr} {final : State} :
      final.rest = [] -> (framing = .unterminated -> final.offset = bytes.length) ->
      final.stack = pile forest -> machine.height = forest.length ->
      machine.peak = final.peak ->
      Agree bytes (.finished machine framing) (.finished final framing)
  | trailing {final : State} :
      final.rest ≠ [] ->
      Agree bytes (.failed (.malformed ⟨final.offset, .trailingBytes final.rest.length⟩))
        (.finished final .terminated)
  | failed {error : DecompileError} {final : State} :
      Agree bytes (.failed error) (.failed final error)

namespace Mirrors

theorem start (bytes : List UInt8) : Mirrors bytes {} [] (.start bytes) where
  rest := rfl
  offset := rfl
  within := Nat.zero_le _
  stack := rfl
  height := rfl
  peak := rfl
  shallow := fun _ member => nomatch member

variable {arities : ArityTable} {options : DecompileOptions} {bytes : List UInt8}
  {machine : HeightMachine} {forest : List Expr} {state : State}

/-- The tree of a node is at most one level deeper than its children, and the
instruction of the node takes at least one byte. -/
theorem settled {reading : Instruction.Reading} {left : List Expr} {expr : Expr}
    (mirrors : Mirrors bytes machine (left ++ expr.children) state)
    (read : Instruction.read state.rest = .ok reading) :
    Mirrors bytes
      ⟨machine.offset + reading.length, left.length + 1, max machine.peak (left.length + 1)⟩
      (left ++ [expr]) ((state.consumed reading).settled (left ++ [expr])) := by
  have parts := List.forall_mem_append.mp mirrors.shallow
  have positive := Instruction.length_pos_of_read read
  have total := Instruction.length_of_read read
  rcases Instruction.encode_of_read read with ⟨code, _, shape, count⟩
  rw [mirrors.rest, List.length_drop] at total
  have within := mirrors.within
  constructor
  · show reading.rest = bytes.drop (machine.offset + reading.length)
    rw [← List.drop_drop, ← mirrors.rest, shape, count, List.drop_left]
  · exact congrArg (· + reading.length) mirrors.offset
  · show machine.offset + reading.length ≤ bytes.length
    omega
  · rfl
  · show left.length + 1 = (left ++ [expr]).length
    rw [List.length_append, List.length_singleton]
  · show max machine.peak (left.length + 1) = max state.peak (left ++ [expr]).length
    rw [mirrors.peak, List.length_append, List.length_singleton]
  · have children := Expr.depthOfAll_le_iff.mpr parts.2
    have whole := expr.depth_eq
    refine List.forall_mem_append.mpr ⟨?_, List.forall_mem_singleton.mpr ?_⟩
    · intro other listed
      exact Nat.le_trans (parts.1 other listed) (Nat.le_add_right _ _)
    · show expr.depth ≤ machine.offset + reading.length
      omega

/-- One turn of the machine agrees with one turn of the execution, if the
nesting limit is out of reach. -/
theorem turn_agrees (mirrors : Mirrors bytes machine forest state)
    (deep : bytes.length ≤ options.nestingLimit) :
    Agree bytes (machine.turn arities options.stackLimit bytes) (state.turn arities options) := by
  cases shape : state.rest with
  | nil =>
      have ended : bytes.drop machine.offset = [] := mirrors.rest ▸ shape
      have within := mirrors.within
      have last : state.offset = bytes.length := by
        rw [mirrors.offset]
        exact Nat.le_antisymm within (List.drop_eq_nil_iff.mp ended)
      simp only [turn, ended, State.turn, shape]
      exact .finished shape (fun _ => last) mirrors.stack mirrors.height mirrors.peak
  | cons opcode operand =>
      have ahead : bytes.drop machine.offset = opcode :: operand := mirrors.rest ▸ shape
      cases read : Instruction.read state.rest with
      | error fault =>
          rw [shape] at read
          simp only [turn, ahead, State.turn, shape, read, mirrors.offset]
          exact .failed
      | ok reading =>
          rw [State.turn_of_read shape read, mirrors.offset]
          rw [shape] at read
          simp only [turn, ahead, read, demand_eq]
          rw [← shape] at read
          cases found : nodeOf arities machine.offset reading.instruction with
          | error error => exact .failed
          | ok node? =>
              cases node? with
              | none =>
                  have position : (state.consumed reading).offset =
                      machine.offset + reading.length :=
                    congrArg (· + reading.length) mirrors.offset
                  simp only [Except.map, Option.map_none]
                  by_cases behind : reading.rest = []
                  · rw [if_pos behind]
                    exact .finished behind (fun impossible => by cases impossible) mirrors.stack
                      mirrors.height mirrors.peak
                  · rw [if_neg behind, ← position]
                    exact .trailing behind
              | some node =>
                  rcases nodeOf_eq_some_iff.mp found with ⟨same, known⟩
                  simp only [Except.map, Option.map_some, mirrors.height, mirrors.stack]
                  by_cases short : forest.length < node.arity
                  · simp only [if_pos short, evaluate_pile_of_lt short]
                    exact .failed
                  · rcases exists_split_of_arity_le (Nat.le_of_not_lt short) with
                      ⟨left, expr, rfl, rfl⟩
                    -- The new tree would still be in bounds, so its depth is too.
                    have grown := mirrors.settled read
                    have level := grown.shallow expr (List.mem_append_right _ List.mem_cons_self)
                    have within := grown.within
                    have beneath : (left ++ expr.children).length - expr.node.arity =
                        left.length := by
                      rw [List.length_append, expr.length_children, Nat.add_sub_cancel]
                    have nested : ¬ max 1 options.nestingLimit < expr.depth := by
                      simp only at level within
                      omega
                    simp only [if_neg short, beneath, evaluate_pile, if_neg nested]
                    by_cases room : left.length < options.stackLimit
                    · simp only [if_neg (Nat.not_le_of_lt room), if_pos room, length_pile,
                        List.length_append, List.length_singleton]
                      apply @Agree.next _ _ (left ++ [expr])
                      simpa only [State.settled, State.consumed, mirrors.offset,
                        List.length_append, List.length_singleton] using grown
                    · simp only [if_pos (Nat.le_of_not_lt room), if_neg room]
                      exact .failed

end Mirrors

private theorem predictFrom_eq (arities : ArityTable) (options : DecompileOptions)
    (bytes : List UInt8) (machine : HeightMachine) :
    predictFrom arities options bytes machine =
      match machine.turn arities options.stackLimit bytes with
      | .next following => predictFrom arities options bytes following
      | .finished final framing => final.conclude options bytes framing
      | .failed error => .failed error := by
  rw [predictFrom, run]
  cases machine.turn arities options.stackLimit bytes with
  | next following => rfl
  | finished final framing => rfl
  | failed error => rfl

private theorem conclude_holds {options : DecompileOptions} {bytes : List UInt8}
    {machine : HeightMachine} {framing : Framing} {forest : List Expr} {final : State}
    (ended : final.rest = []) (last : framing = .unterminated -> final.offset = bytes.length)
    (stack : final.stack = pile forest) (height : machine.height = forest.length)
    (peak : machine.peak = final.peak) :
    (machine.conclude options bytes framing).Holds (final.conclude options framing) := by
  have noTrailing : ¬ (framing = .terminated ∧ final.rest ≠ []) :=
    fun trailing => trailing.2 ended
  simp only [conclude, State.conclude, if_neg noTrailing]
  by_cases missing : framing = .unterminated ∧ options.requireTerminator
  · rw [if_pos missing, if_pos missing, last missing.1]
    rfl
  · rw [if_neg missing, if_neg missing, stack, height, peak]
    by_cases alone : forest.length = 1
    · rcases List.length_eq_one_iff.mp alone with ⟨expr, rfl⟩
      exact ⟨expr, rfl⟩
    · rw [if_neg alone]
      refine ⟨forest, rfl, ?_⟩
      split
      · rename_i operand single
        have count := congrArg List.length single
        rw [length_pile] at count
        exact absurd count alone
      · rw [map_expr_reverse_pile]

theorem Mirrors.predictFrom_holds {arities : ArityTable} {options : DecompileOptions}
    {bytes : List UInt8} {machine : HeightMachine} {forest : List Expr} {state : State}
    (mirrors : Mirrors bytes machine forest state) (deep : bytes.length ≤ options.nestingLimit) :
    (predictFrom arities options bytes machine).Holds (state.outcome arities options) := by
  have agree : Agree bytes (machine.turn arities options.stackLimit bytes)
      (state.turn arities options) := mirrors.turn_agrees deep
  generalize turned : machine.turn arities options.stackLimit bytes = turn at agree
  generalize executed : state.turn arities options = turn' at agree
  cases agree with
  | next following =>
      rw [predictFrom_eq, turned, State.outcome_of_next executed]
      exact following.predictFrom_holds deep
  | finished ended last stack height peak =>
      rw [predictFrom_eq, turned, State.outcome_of_finished executed]
      exact conclude_holds ended last stack height peak
  | trailing behind =>
      rw [predictFrom_eq, turned, State.outcome_of_finished executed]
      exact if_pos ⟨rfl, behind⟩
  | failed =>
      rw [predictFrom_eq, turned, State.outcome_of_failed executed]
      rfl
termination_by bytes.length - machine.offset
decreasing_by exact remaining_lt_of_turn turned

/-- The machine predicts every decompilation in which the nesting limit is out
of reach. -/
theorem predict_holds {arities : ArityTable} {options : DecompileOptions} {bytes : List UInt8}
    (nonempty : bytes ≠ []) (deep : bytes.length ≤ options.nestingLimit) :
    (predict arities options bytes).Holds (decompile arities options bytes) := by
  rw [decompile_eq_outcome nonempty]
  exact (Mirrors.start bytes).predictFrom_holds deep

theorem predict_holds_surrogateCall :
    predict (.ofRows [(6, 12, 2)]) ⟨3, 19, true⟩ surrogateCallBytes = .decompiled .terminated 3 ∧
      predict (.ofRows [(6, 12, 4)]) ⟨3, 19, true⟩ surrogateCallBytes =
        .failed (.stackUnderflow 12 0x8B 4 2) ∧
      (predict (.ofRows [(6, 12, 2)]) ⟨3, 19, true⟩ surrogateCallBytes).Holds
        (decompile (.ofRows [(6, 12, 2)]) ⟨3, 19, true⟩ surrogateCallBytes) ∧
      (predict (.ofRows [(6, 12, 4)]) ⟨3, 19, true⟩ surrogateCallBytes).Holds
        (decompile (.ofRows [(6, 12, 4)]) ⟨3, 19, true⟩ surrogateCallBytes) := by
  have nonempty : surrogateCallBytes ≠ [] := List.cons_ne_nil _ _
  have deep : surrogateCallBytes.length ≤ 19 := by decide
  refine ⟨?_, ?_, predict_holds nonempty deep, predict_holds nonempty deep⟩
  · decide +kernel
  · decide +kernel

end HeightMachine
end Rpn
