import Mathlib.Logic.Relation
import Rpn.Decompilation
import Rpn.Proofs.Assembling

/-!
# What one turn of an execution does

The stack of an execution holds trees with their depths beside them.  A stack
is described here by its forest: the trees alone, bottom first.  That order is
the one in which the trees were read, so the bytes behind a stack are the codes
of its forest one after another.

One turn takes the children of a node off the end of the forest and puts the
tree of the node there.  `evaluate_pile` says this with all three ways to fail,
and `leads_turn` lists all that a whole turn can lead to.  Proofs about
executions use these, the equivalences drawn from them and the reachability
relation `Reaches`, and open neither the turn nor the run.
-/

namespace Rpn
namespace Decompiler

/-! ## Stacks and forests -/

def Operand.of (expr : Expr) : Operand :=
  ⟨expr, expr.depth⟩

theorem map_expr_of (forest : List Expr) : (forest.map Operand.of).map Operand.expr = forest := by
  rw [List.map_map]
  exact List.map_id forest

theorem map_depth_of (forest : List Expr) :
    (forest.map Operand.of).map Operand.depth = forest.map Expr.depth := by
  rw [List.map_map]
  rfl

/-- The stack of a forest. -/
def pile (forest : List Expr) : List Operand :=
  (forest.map Operand.of).reverse

theorem length_pile (forest : List Expr) : (pile forest).length = forest.length := by
  simp only [pile, List.length_reverse, List.length_map]

theorem pile_append (left right : List Expr) : pile (left ++ right) = pile right ++ pile left := by
  simp only [pile, List.map_append, List.reverse_append]

theorem pile_append_singleton (left : List Expr) (expr : Expr) :
    pile (left ++ [expr]) = Operand.of expr :: pile left :=
  pile_append left [expr]

theorem map_expr_reverse_pile (forest : List Expr) :
    (pile forest).reverse.map Operand.expr = forest := by
  rw [pile, List.reverse_reverse, map_expr_of]

theorem pile_injective : Function.Injective pile := by
  intro first second same
  rw [← map_expr_reverse_pile first, same, map_expr_reverse_pile]

/-- A node with operands enough on the stack takes the last trees of the
forest for its children. -/
theorem exists_split_of_arity_le {node : Node} {forest : List Expr}
    (enough : node.arity ≤ forest.length) :
    Exists fun left => Exists fun expr : Expr => expr.node = node ∧ forest = left ++ expr.children := by
  have count : (forest.drop (forest.length - node.arity)).length = node.arity := by
    rw [List.length_drop]
    omega
  have built : Exists fun expr : Expr =>
      node.build? (forest.drop (forest.length - node.arity)) = some expr := by
    generalize forest.drop (forest.length - node.arity) = children at count
    cases node with
    | const constant => exact ⟨_, by rw [List.length_eq_zero_iff.mp count]; rfl⟩
    | param slot => exact ⟨_, by rw [List.length_eq_zero_iff.mp count]; rfl⟩
    | unary op =>
        rcases List.length_eq_one_iff.mp count with ⟨operand, rfl⟩
        exact ⟨_, rfl⟩
    | binary op =>
        rcases List.length_eq_two.mp count with ⟨left, right, rfl⟩
        exact ⟨_, rfl⟩
    | function args =>
        cases children with
        | nil => cases count
        | cons id others =>
            exact ⟨_, if_pos (Nat.succ.inj count)⟩
    | command bank id args => exact ⟨_, if_pos count⟩
  rcases built with ⟨expr, built⟩
  rcases Node.node_children_of_build? built with ⟨same, children⟩
  exact ⟨forest.take (forest.length - node.arity), expr, same,
    children ▸ (List.take_append_drop _ forest).symm⟩

/-! ## One node -/

theorem foldl_max_depth (first : Nat) (forest : List Expr) :
    (forest.map Expr.depth).foldl max first = max first (Expr.depthOfAll forest) := by
  induction forest generalizing first with
  | nil => simp only [List.map_nil, List.foldl_nil, Expr.depthOfAll, Nat.max_zero]
  | cons expr rest inductionHypothesis =>
      simp only [List.map_cons, List.foldl_cons, inductionHypothesis, Expr.depthOfAll,
        Nat.max_assoc]

/-- The depth of a tree found from the depths of its children, and the limit
it is checked against.  A leaf passes under every limit. -/
theorem nest_children (options : DecompileOptions) (offset : Nat) (expr : Expr) :
    nest options offset (expr.children.map Expr.depth) =
      if max 1 options.nestingLimit < expr.depth then
        .error (.nestingTooDeep offset options.nestingLimit)
      else .ok expr.depth := by
  rw [expr.depth_eq]
  cases expr.children with
  | nil =>
      have shallow : ¬ max 1 options.nestingLimit < 1 := by omega
      simp only [List.map_nil, nest, Expr.depthOfAll, Nat.zero_add, if_neg shallow]
  | cons child rest =>
      have positive := child.depth_pos
      have same : options.nestingLimit < max child.depth (Expr.depthOfAll rest) + 1 ↔
          max 1 options.nestingLimit < max child.depth (Expr.depthOfAll rest) + 1 := by
        omega
      simp only [List.map_cons, nest, foldl_max_depth, Expr.depthOfAll]
      exact if_congr same rfl rfl

/-- Too few operands are an underflow, whatever else is wrong. -/
theorem evaluate_pile_of_lt {options : DecompileOptions} {offset : Nat} {opcode : UInt8}
    {node : Node} {forest : List Expr} (short : forest.length < node.arity) :
    evaluate options offset opcode node (pile forest) =
      .error (.stackUnderflow offset opcode node.arity forest.length) := by
  have missing : node.build? (((pile forest).take node.arity).reverse.map Operand.expr) = none := by
    cases built : node.build? (((pile forest).take node.arity).reverse.map Operand.expr) with
    | none => rfl
    | some expr =>
        rcases Node.node_children_of_build? built with ⟨same, children⟩
        have count := expr.length_children
        rw [children, same, List.length_map, List.length_reverse, List.length_take,
          length_pile] at count
        omega
  simp only [evaluate, missing, length_pile]

/-- A node whose operands are on the stack puts its tree in their place, if
the tree is not too deep and there is room. -/
theorem evaluate_pile (options : DecompileOptions) (offset : Nat) (opcode : UInt8)
    (left : List Expr) (expr : Expr) :
    evaluate options offset opcode expr.node (pile (left ++ expr.children)) =
      if max 1 options.nestingLimit < expr.depth then
        .error (.nestingTooDeep offset options.nestingLimit)
      else if left.length < options.stackLimit then .ok (pile (left ++ [expr]))
      else .error (.stackOverflow offset options.stackLimit) := by
  have count : (pile expr.children).length = expr.node.arity := by
    rw [length_pile, expr.length_children]
  have operands : ((pile (left ++ expr.children)).take expr.node.arity).reverse =
      expr.children.map Operand.of := by
    rw [pile_append, List.take_left' count, pile, List.reverse_reverse]
  have beneath : (pile (left ++ expr.children)).drop expr.node.arity = pile left := by
    rw [pile_append, List.drop_left' count]
  simp only [evaluate, operands, beneath, map_expr_of, map_depth_of, Node.build?_children,
    nest_children, length_pile]
  by_cases deep : max 1 options.nestingLimit < expr.depth
  · simp only [if_pos deep]
    rfl
  · simp only [if_neg deep, pile_append_singleton]
    rfl

theorem nodeOf_eq_some_iff {arities : ArityTable} {offset : Nat} {instruction : Instruction}
    {node : Node} :
    nodeOf arities offset instruction = .ok (some node) ↔
      node.instruction = instruction ∧ node.Known arities := by
  constructor
  · intro found
    unfold nodeOf at found
    split at found
    · cases found
      exact ⟨rfl, trivial⟩
    · cases found
      exact ⟨rfl, trivial⟩
    · cases found
      exact ⟨rfl, trivial⟩
    · cases found
      exact ⟨rfl, trivial⟩
    · cases found
      exact ⟨rfl, trivial⟩
    · split at found
      · cases found
      · rename_i args count
        cases found
        exact ⟨rfl, count⟩
    · cases found
  · rintro ⟨rfl, known⟩
    cases node with
    | command bank id args =>
        have count : arities bank id = some args := known
        simp only [Node.instruction, nodeOf, count]
    | _ => rfl

theorem nodeOf_eq_none_iff {arities : ArityTable} {offset : Nat} {instruction : Instruction} :
    nodeOf arities offset instruction = .ok none ↔ instruction = .stop := by
  constructor
  · intro found
    unfold nodeOf at found
    split at found <;> try split at found
    all_goals cases found
    rfl
  · rintro rfl
    rfl

/-! ## One turn -/

namespace State

def consumed (state : State) (reading : Instruction.Reading) : State :=
  { state with
    rest := reading.rest
    offset := state.offset + reading.length
    trace := ⟨state.offset, reading.length, reading.instruction⟩ :: state.trace }

/-- The state once a node has been evaluated. -/
def settled (state : State) (forest : List Expr) : State :=
  { state with
    stack := pile forest
    peak := max state.peak forest.length }

variable {arities : ArityTable} {options : DecompileOptions}

theorem turn_of_read {state : State} {opcode : UInt8} {operand : List UInt8}
    {reading : Instruction.Reading} (shape : state.rest = opcode :: operand)
    (read : Instruction.read state.rest = .ok reading) :
    state.turn arities options =
      match nodeOf arities state.offset reading.instruction with
      | .error error => .failed (state.consumed reading) error
      | .ok none => .finished (state.consumed reading) .terminated
      | .ok (some node) =>
        match evaluate options state.offset opcode node state.stack with
        | .error error => .failed (state.consumed reading) error
        | .ok stack =>
          .next { state.consumed reading with
            stack
            peak := max state.peak stack.length } := by
  unfold turn
  split
  · rename_i ended
    cases ended.symm.trans shape
  · rename_i first others filled
    cases filled.symm.trans shape
    rw [shape] at read
    split
    · rename_i fault refused
      cases refused.symm.trans read
    · rename_i other found
      cases found.symm.trans read
      rfl

/-- All that can be wrong with the instruction at hand, by what is checked:
the bytes, the table of commands, the operands, the nesting, and the room. -/
inductive Fault (arities : ArityTable) (options : DecompileOptions) (forest : List Expr)
    (state : State) : DecompileError -> Prop
  | malformed {fault : StreamFault} :
      state.rest ≠ [] -> Instruction.read state.rest = .error fault ->
      Fault arities options forest state (.malformed ⟨state.offset, fault⟩)
  | unknownCommand {reading : Instruction.Reading} {bank : UInt8} {id : Int32} :
      Instruction.read state.rest = .ok reading -> reading.instruction = .command bank id ->
      arities bank id = none ->
      Fault arities options forest state (.unknownCommand state.offset bank id)
  | underflow {reading : Instruction.Reading} {opcode : UInt8} {operand : List UInt8}
      {node : Node} :
      Instruction.read state.rest = .ok reading -> state.rest = opcode :: operand ->
      node.instruction = reading.instruction -> node.Known arities ->
      forest.length < node.arity ->
      Fault arities options forest state
        (.stackUnderflow state.offset opcode node.arity forest.length)
  | nesting {reading : Instruction.Reading} {left : List Expr} {expr : Expr} :
      Instruction.read state.rest = .ok reading ->
      expr.node.instruction = reading.instruction -> expr.node.Known arities ->
      forest = left ++ expr.children -> max 1 options.nestingLimit < expr.depth ->
      Fault arities options forest state (.nestingTooDeep state.offset options.nestingLimit)
  | overflow {reading : Instruction.Reading} {left : List Expr} {expr : Expr} :
      Instruction.read state.rest = .ok reading ->
      expr.node.instruction = reading.instruction -> expr.node.Known arities ->
      forest = left ++ expr.children -> expr.depth ≤ max 1 options.nestingLimit ->
      options.stackLimit ≤ left.length ->
      Fault arities options forest state (.stackOverflow state.offset options.stackLimit)

private theorem fault_of_nodeOf {state : State} {forest : List Expr}
    {reading : Instruction.Reading} {error : DecompileError}
    (read : Instruction.read state.rest = .ok reading)
    (found : nodeOf arities state.offset reading.instruction = .error error) :
    Fault arities options forest state error := by
  cases same : reading.instruction with
  | command bank id =>
      rw [same] at found
      simp only [nodeOf] at found
      split at found
      · rename_i unknown
        cases found
        exact .unknownCommand read same unknown
      · cases found
  | _ =>
      rw [same] at found
      cases found

/-- All that a turn can lead to. -/
inductive Leads (arities : ArityTable) (options : DecompileOptions) (forest : List Expr)
    (state : State) : Turn -> Prop
  | next {reading : Instruction.Reading} {left : List Expr} {expr : Expr} :
      Instruction.read state.rest = .ok reading ->
      expr.node.instruction = reading.instruction -> expr.node.Known arities ->
      forest = left ++ expr.children -> expr.depth ≤ max 1 options.nestingLimit ->
      left.length < options.stackLimit ->
      Leads arities options forest state
        (.next ((state.consumed reading).settled (left ++ [expr])))
  | ended :
      state.rest = [] -> Leads arities options forest state (.finished state .unterminated)
  | stopped {reading : Instruction.Reading} :
      Instruction.read state.rest = .ok reading -> reading.instruction = .stop ->
      Leads arities options forest state (.finished (state.consumed reading) .terminated)
  | failed {final : State} {error : DecompileError} :
      Fault arities options forest state error ->
      Leads arities options forest state (.failed final error)

theorem leads_turn {state : State} {forest : List Expr} (piled : state.stack = pile forest) :
    Leads arities options forest state (state.turn arities options) := by
  cases shape : state.rest with
  | nil =>
      simp only [turn, shape]
      exact .ended shape
  | cons opcode operand =>
      have filled : state.rest ≠ [] := shape ▸ List.cons_ne_nil opcode operand
      cases read : Instruction.read state.rest with
      | error fault =>
          have refused := read
          rw [shape] at refused
          simp only [turn, shape, refused]
          exact .failed (.malformed filled read)
      | ok reading =>
          rw [turn_of_read shape read, piled]
          cases found : nodeOf arities state.offset reading.instruction with
          | error error => exact .failed (fault_of_nodeOf read found)
          | ok node? =>
              cases node? with
              | none => exact .stopped read (nodeOf_eq_none_iff.mp found)
              | some node =>
                  rcases nodeOf_eq_some_iff.mp found with ⟨same, known⟩
                  by_cases short : forest.length < node.arity
                  · simp only [evaluate_pile_of_lt short]
                    exact .failed (.underflow read shape same known short)
                  · rcases exists_split_of_arity_le (Nat.le_of_not_lt short) with
                      ⟨left, expr, rfl, rfl⟩
                    by_cases deep : max 1 options.nestingLimit < expr.depth
                    · simp only [evaluate_pile, if_pos deep]
                      exact .failed (.nesting read same known rfl deep)
                    · have shallow := Nat.le_of_not_lt deep
                      by_cases room : left.length < options.stackLimit
                      · simp only [evaluate_pile, if_neg deep, if_pos room, length_pile]
                        exact .next read same known rfl shallow room
                      · simp only [evaluate_pile, if_neg deep, if_neg room]
                        exact .failed
                          (.overflow read same known rfl shallow (Nat.le_of_not_lt room))

theorem turn_eq_next_iff {state following : State} {forest : List Expr}
    (piled : state.stack = pile forest) :
    state.turn arities options = .next following ↔
      Exists fun reading => Exists fun left => Exists fun expr : Expr =>
        Instruction.read state.rest = .ok reading ∧
          expr.node.instruction = reading.instruction ∧ expr.node.Known arities ∧
            forest = left ++ expr.children ∧ expr.depth ≤ max 1 options.nestingLimit ∧
              left.length < options.stackLimit ∧
                following = (state.consumed reading).settled (left ++ [expr]) := by
  constructor
  · intro turned
    have leads : Leads arities options forest state (state.turn arities options) :=
      leads_turn piled
    rw [turned] at leads
    cases leads with
    | next read same known split shallow room =>
        exact ⟨_, _, _, read, same, known, split, shallow, room, rfl⟩
  · rintro ⟨reading, left, expr, read, same, known, rfl, shallow, room, rfl⟩
    cases shape : state.rest with
    | nil => exact absurd shape (Instruction.ne_nil_of_read read)
    | cons opcode operand =>
        rw [turn_of_read shape read, nodeOf_eq_some_iff.mpr ⟨same, known⟩, piled]
        simp only [evaluate_pile, if_neg (Nat.not_lt_of_le shallow), if_pos room, length_pile]
        rfl

theorem turn_eq_finished_iff {state final : State} {forest : List Expr} {framing : Framing}
    (piled : state.stack = pile forest) :
    state.turn arities options = .finished final framing ↔
      (state.rest = [] ∧ final = state ∧ framing = .unterminated) ∨
        Exists fun reading => Instruction.read state.rest = .ok reading ∧
          reading.instruction = .stop ∧ final = state.consumed reading ∧
            framing = .terminated := by
  constructor
  · intro turned
    have leads : Leads arities options forest state (state.turn arities options) :=
      leads_turn piled
    rw [turned] at leads
    cases leads with
    | ended shape => exact Or.inl ⟨shape, rfl, rfl⟩
    | stopped read stop => exact Or.inr ⟨_, read, stop, rfl, rfl⟩
  · rintro (⟨shape, rfl, rfl⟩ | ⟨reading, read, stop, rfl, rfl⟩)
    · simp only [turn, shape]
    · cases shape : state.rest with
      | nil => exact absurd shape (Instruction.ne_nil_of_read read)
      | cons opcode operand =>
          rw [turn_of_read shape read, nodeOf_eq_none_iff.mpr stop]

/-- A turn fails exactly if something is wrong with the instruction at hand. -/
theorem turn_eq_failed_iff {state : State} {forest : List Expr} {error : DecompileError}
    (piled : state.stack = pile forest) :
    (Exists fun final => state.turn arities options = .failed final error) ↔
      Fault arities options forest state error := by
  constructor
  · rintro ⟨final, turned⟩
    have leads : Leads arities options forest state (state.turn arities options) :=
      leads_turn piled
    rw [turned] at leads
    cases leads with
    | failed fault => exact fault
  · intro fault
    cases shape : state.rest with
    | nil =>
        cases fault with
        | malformed nonempty _ => exact absurd shape nonempty
        | unknownCommand read _ _ => exact absurd shape (Instruction.ne_nil_of_read read)
        | underflow read _ _ _ _ => exact absurd shape (Instruction.ne_nil_of_read read)
        | nesting read _ _ _ _ => exact absurd shape (Instruction.ne_nil_of_read read)
        | overflow read _ _ _ _ _ => exact absurd shape (Instruction.ne_nil_of_read read)
    | cons opcode operand =>
        cases fault with
        | malformed _ read =>
            rw [shape] at read
            exact ⟨state, by simp only [turn, shape, read]⟩
        | @unknownCommand reading bank id read command unknown =>
            have found : nodeOf arities state.offset reading.instruction =
                .error (.unknownCommand state.offset bank id) := by
              simp only [command, nodeOf, unknown]
            exact ⟨state.consumed reading, by rw [turn_of_read shape read, found]⟩
        | @underflow reading byte bytes node read shape' same known short =>
            rw [shape] at shape'
            cases shape'
            refine ⟨state.consumed reading, ?_⟩
            rw [turn_of_read shape read, nodeOf_eq_some_iff.mpr ⟨same, known⟩, piled]
            simp only [evaluate_pile_of_lt short]
        | @nesting reading left expr read same known split deep =>
            refine ⟨state.consumed reading, ?_⟩
            rw [turn_of_read shape read, nodeOf_eq_some_iff.mpr ⟨same, known⟩, piled, split]
            simp only [evaluate_pile, if_pos deep]
        | @overflow reading left expr read same known split shallow full =>
            refine ⟨state.consumed reading, ?_⟩
            rw [turn_of_read shape read, nodeOf_eq_some_iff.mpr ⟨same, known⟩, piled, split]
            simp only [evaluate_pile, if_neg (Nat.not_lt_of_le shallow),
              if_neg (Nat.not_lt_of_le full)]

/-! ## Runs -/

theorem run_eq (arities : ArityTable) (options : DecompileOptions) (state : State) :
    state.run arities options =
      match state.turn arities options with
      | .next following => following.run arities options
      | .finished final framing => (final, .ok framing)
      | .failed final error => (final, .error error) := by
  rw [run]
  cases state.turn arities options with
  | next following => rfl
  | finished final framing => rfl
  | failed final error => rfl

/-- What comes of an execution that stands in a state. -/
def outcome (arities : ArityTable) (options : DecompileOptions) (state : State) :
    Except DecompileError Decompiled :=
  match state.run arities options with
  | (_, .error error) => .error error
  | (final, .ok framing) => final.conclude options framing

private theorem outcome_eq (arities : ArityTable) (options : DecompileOptions) (state : State) :
    state.outcome arities options =
      match state.turn arities options with
      | .next following => following.outcome arities options
      | .finished final framing => final.conclude options framing
      | .failed _ error => .error error := by
  rw [outcome, run_eq]
  cases state.turn arities options with
  | next following => rfl
  | finished final framing => rfl
  | failed final error => rfl

theorem outcome_of_next {state following : State}
    (turned : state.turn arities options = .next following) :
    state.outcome arities options = following.outcome arities options := by
  rw [outcome_eq, turned]

theorem outcome_of_finished {state final : State} {framing : Framing}
    (turned : state.turn arities options = .finished final framing) :
    state.outcome arities options = final.conclude options framing := by
  rw [outcome_eq, turned]

theorem outcome_of_failed {state final : State} {error : DecompileError}
    (turned : state.turn arities options = .failed final error) :
    state.outcome arities options = .error error := by
  rw [outcome_eq, turned]

def Reaches (arities : ArityTable) (options : DecompileOptions) : State -> State -> Prop :=
  Relation.ReflTransGen fun state following => state.turn arities options = .next following

theorem run_of_reaches {following : State} (steps : Reaches arities options state following) :
    state.run arities options = following.run arities options := by
  induction steps with
  | refl => rfl
  | tail _ turned inductionHypothesis =>
      rw [inductionHypothesis, run_eq, turned]

theorem outcome_of_reaches {state following : State}
    (steps : Reaches arities options state following) :
    state.outcome arities options = following.outcome arities options := by
  unfold outcome
  rw [run_of_reaches steps]

/-- Every execution reaches its last turn, which finishes or fails. -/
theorem exists_last (arities : ArityTable) (options : DecompileOptions) (state : State) :
    Exists fun last => Reaches arities options state last ∧
      ((Exists fun final => Exists fun framing =>
        last.turn arities options = .finished final framing) ∨
        Exists fun final => Exists fun error =>
          last.turn arities options = .failed final error) := by
  cases turned : state.turn arities options with
  | next following =>
      rcases exists_last arities options following with ⟨last, steps, ending⟩
      exact ⟨last, .head turned steps, ending⟩
  | finished final framing => exact ⟨state, .refl, Or.inl ⟨final, framing, turned⟩⟩
  | failed final error => exact ⟨state, .refl, Or.inr ⟨final, error, turned⟩⟩
termination_by state.rest.length
decreasing_by exact rest_lt_of_turn turned

end State
end Decompiler

theorem decompile_eq_outcome {bytes : List UInt8} (nonempty : bytes ≠ []) (arities : ArityTable)
    (options : DecompileOptions) :
    decompile arities options bytes =
      (Decompiler.State.start bytes).outcome arities options := by
  have filled : ¬ bytes.isEmpty := fun empty => nonempty (List.isEmpty_iff.mp empty)
  rw [decompile, Decompiler.run, if_neg filled, Decompiler.State.outcome]
  rcases (Decompiler.State.start bytes).run arities options with ⟨final, error | framing⟩
  · rfl
  · rfl

end Rpn
