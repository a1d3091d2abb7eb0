import Rpn.Proofs.Ending
import Rpn.Proofs.Guarded.Reading

/-!
# Execution under guards

Here the stack has its top at the end, operands are taken off it by splitting
it at a place, and single operands are removed by their index.  A place is
found by a guarded subtraction, and the depth of a new tree by a guarded
addition.

The library takes the operands from the front of its stack and builds the node
from them.  The two agree on the stack of any forest (`perform_forest`), and so
they do on a whole execution (`executeFrom_append`).  No depth overflows, since
a tree is no deeper than bytes were read for it.
-/

namespace Rpn
namespace Guarded

open Decompiler (Operand)

/-! ## The stack -/

/-- The operands of an instruction and what is left beneath them. -/
structure Popped where
  left : List Operand
  operands : List Operand

def pop (offset : Nat) (opcode : UInt8) (count : Nat) (stack : List Operand) :
    Guarded DecompileError Popped :=
  if stack.length < count then fail (.stackUnderflow offset opcode count stack.length)
  else do
    let place ← subSize stack.length count
    let (left, operands) ← splitOff stack place
    .ok ⟨left, operands⟩

def push (options : DecompileOptions) (offset : Nat) (stack : List Operand) (operand : Operand) :
    Guarded DecompileError (List Operand) :=
  if options.stackLimit ≤ stack.length then fail (.stackOverflow offset options.stackLimit)
  else .ok (stack ++ [operand])

/-- The depth of a tree whose deepest child has the given depth. -/
def nested (options : DecompileOptions) (offset below : Nat) : Guarded DecompileError Nat := do
  let depth ← addSize below 1
  if options.nestingLimit < depth then fail (.nestingTooDeep offset options.nestingLimit)
  else .ok depth

/-- The depth of a call of these operands.  Without any it is a leaf. -/
def callDepth (options : DecompileOptions) (offset : Nat) (operands : List Operand) :
    Guarded DecompileError Nat :=
  match operands.map Operand.depth with
  | [] => .ok 1
  | first :: others => nested options offset (others.foldl max first)

/-! ## One instruction -/

/-- The stack after an instruction.  The end-marker leaves none. -/
def perform (arities : ArityTable) (options : DecompileOptions) (offset : Nat) (opcode : UInt8)
    (stack : List Operand) : Instruction -> Guarded DecompileError (Option (List Operand))
  | .push constant => do
    let stack ← push options offset stack ⟨.const constant, 1⟩
    .ok (some stack)
  | .param slot => do
    let stack ← push options offset stack ⟨.param slot, 1⟩
    .ok (some stack)
  | .unary op => do
    let popped ← pop offset opcode 1 stack
    let (operand, _) ← remove popped.operands 0
    let depth ← nested options offset operand.depth
    let stack ← push options offset popped.left ⟨.unary op operand.expr, depth⟩
    .ok (some stack)
  | .binary op => do
    let popped ← pop offset opcode 2 stack
    let (right, others) ← remove popped.operands 1
    let (left, _) ← remove others 0
    let depth ← nested options offset (max left.depth right.depth)
    let stack ← push options offset popped.left ⟨.binary op left.expr right.expr, depth⟩
    .ok (some stack)
  | .call args => do
    let count ← addSize args 1
    let popped ← pop offset opcode count stack
    let depth ← callDepth options offset popped.operands
    let (id, args) ← remove (popped.operands.map Operand.expr) 0
    let stack ← push options offset popped.left ⟨.function id args, depth⟩
    .ok (some stack)
  | .command bank id =>
    match arities bank id with
    | none => fail (.unknownCommand offset bank id)
    | some count => do
      let popped ← pop offset opcode count stack
      let depth ← callDepth options offset popped.operands
      let stack ← push options offset popped.left
        ⟨.command bank id (popped.operands.map Operand.expr), depth⟩
      .ok (some stack)
  | .stop => .ok none

/-! ## A whole buffer -/

/-- Judge what is left at the end of an execution. -/
def conclude (options : DecompileOptions) (bytes : List UInt8) (framing : Framing)
    (position : Nat) (stack : List Operand) (peak : Nat) : Guarded DecompileError Decompiled :=
  if framing = .terminated ∧ position < bytes.length then do
    let trailing ← slice bytes position bytes.length
    fail (.malformed ⟨position, .trailingBytes trailing.length⟩)
  else if framing = .unterminated ∧ options.requireTerminator then
    fail (.malformed ⟨bytes.length, .missingTerminator⟩)
  else
    let left := stack.map Operand.expr
    if left.length ≠ 1 then fail (.unbalanced left)
    else do
      let (expr, _) ← remove left 0
      .ok ⟨expr, framing, peak⟩

/-- The loop of an execution. -/
def executeFrom (arities : ArityTable) (options : DecompileOptions) (bytes : List UInt8)
    (position : Nat) (stack : List Operand) (peak : Nat) : Guarded DecompileError Decompiled :=
  if _inside : position < bytes.length then do
    let fetched ← rename .malformed (fetch bytes position)
    let opcode ← index bytes position
    match ← perform arities options position opcode stack fetched.instruction with
    | none => conclude options bytes .terminated fetched.next stack peak
    | some stack =>
      if _moved : position < fetched.next then
        executeFrom arities options bytes fetched.next stack (max peak stack.length)
      else trap .stuck
  else conclude options bytes .unterminated position stack peak
termination_by bytes.length - position

def decompile (arities : ArityTable) (options : DecompileOptions) (bytes : List UInt8) :
    Guarded DecompileError Decompiled :=
  if bytes.isEmpty then fail (.malformed ⟨0, .empty⟩)
  else executeFrom arities options bytes 0 [] 0

/-! ## The guards of one instruction -/

section Performing

variable {arities : ArityTable} {options : DecompileOptions} {offset : Nat} {opcode : UInt8}

theorem pop_of_lt {count : Nat} {stack : List Operand} (short : stack.length < count) :
    pop offset opcode count stack = fail (.stackUnderflow offset opcode count stack.length) :=
  if_pos short

theorem pop_append (left operands : List Operand) :
    pop offset opcode operands.length (left ++ operands) = .ok ⟨left, operands⟩ := by
  have enough : ¬ (left ++ operands).length < operands.length := by
    rw [List.length_append]
    omega
  have place : (left ++ operands).length - operands.length = left.length := by
    rw [List.length_append, Nat.add_sub_cancel]
  rw [pop, if_neg enough, subSize_eq (Nat.le_of_not_lt enough), ok_bind, place, splitOff_append]
  rfl

/-- A tree over a child is too deep for a limit exactly if it is for a limit of
at least one. -/
theorem nested_eq {below : Nat} (positive : 0 < below) (room : below + 1 < sizeLimit) :
    nested options offset below =
      if max 1 options.nestingLimit < below + 1 then
        fail (.nestingTooDeep offset options.nestingLimit)
      else .ok (below + 1) := by
  have same : options.nestingLimit < below + 1 ↔ max 1 options.nestingLimit < below + 1 := by
    omega
  rw [nested, addSize_eq room, ok_bind]
  exact if_congr same rfl rfl

theorem callDepth_eq {forest : List Expr} (room : Expr.depthOfAll forest + 1 < sizeLimit) :
    callDepth options offset (forest.map Operand.of) =
      if max 1 options.nestingLimit < Expr.depthOfAll forest + 1 then
        fail (.nestingTooDeep offset options.nestingLimit)
      else .ok (Expr.depthOfAll forest + 1) := by
  rw [callDepth, Decompiler.map_depth_of]
  cases forest with
  | nil =>
      have shallow : ¬ max 1 options.nestingLimit < Expr.depthOfAll [] + 1 := by
        simp only [Expr.depthOfAll]
        omega
      rw [if_neg shallow]
      rfl
  | cons first others =>
      have positive : 0 < Expr.depthOfAll (first :: others) :=
        Nat.lt_of_lt_of_le first.depth_pos (Nat.le_max_left _ _)
      rw [List.map_cons]
      simp only [Decompiler.foldl_max_depth]
      exact nested_eq positive room

/-- What comes of a tree that is to be put on a forest. -/
def settle (options : DecompileOptions) (offset : Nat) (left : List Expr) (expr : Expr) :
    Guarded DecompileError (Option (List Operand)) :=
  if max 1 options.nestingLimit < expr.depth then
    fail (.nestingTooDeep offset options.nestingLimit)
  else if left.length < options.stackLimit then .ok (some ((left ++ [expr]).map Operand.of))
  else fail (.stackOverflow offset options.stackLimit)

/-- The depth is found and checked first, the room on the stack after it. -/
theorem settle_of_depth {left : List Expr} {expr : Expr} {depth : Guarded DecompileError Nat}
    (found : depth =
      if max 1 options.nestingLimit < expr.depth then
        fail (.nestingTooDeep offset options.nestingLimit)
      else .ok expr.depth) :
    (do
      let depth ← depth
      let stack ← push options offset (left.map Operand.of) ⟨expr, depth⟩
      .ok (some stack)) = settle options offset left expr := by
  rw [settle, found]
  by_cases deep : max 1 options.nestingLimit < expr.depth
  · rw [if_pos deep, if_pos deep]
    rfl
  · rw [if_neg deep, if_neg deep]
    by_cases room : left.length < options.stackLimit
    · have free : ¬ options.stackLimit ≤ (left.map Operand.of).length := by
        rw [List.length_map]
        exact Nat.not_le_of_lt room
      simp only [ok_bind, push, if_neg free, if_pos room, List.map_append]
      rfl
    · have full : options.stackLimit ≤ (left.map Operand.of).length := by
        rw [List.length_map]
        exact Nat.le_of_not_lt room
      simp only [ok_bind, push, if_pos full, if_neg room]
      rfl

/-- An instruction whose operands are not all there. -/
theorem perform_short {node : Node} {forest : List Expr} (known : node.Known arities)
    (few : forall args, node.instruction = .call args -> args + 1 < sizeLimit)
    (short : forest.length < node.arity) :
    perform arities options offset opcode (forest.map Operand.of) node.instruction =
      fail (.stackUnderflow offset opcode node.arity forest.length) := by
  have missing : pop offset opcode node.arity (forest.map Operand.of) =
      fail (.stackUnderflow offset opcode node.arity forest.length) := by
    have underflow := @pop_of_lt offset opcode node.arity (forest.map Operand.of)
    rw [List.length_map] at underflow
    exact underflow short
  cases node with
  | const constant => exact absurd short (Nat.not_lt_zero _)
  | param slot => exact absurd short (Nat.not_lt_zero _)
  | unary op => exact congrArg (· >>= _) missing
  | binary op => exact congrArg (· >>= _) missing
  | function args =>
      simp only [Node.instruction, perform, addSize_eq (few args rfl), ok_bind]
      exact congrArg (· >>= _) missing
  | command bank id args =>
      have count : arities bank id = some args := known
      simp only [Node.instruction, perform, count]
      exact congrArg (· >>= _) missing

/-- An instruction whose operands are there. -/
theorem perform_forest {left : List Expr} {expr : Expr} (known : expr.node.Known arities)
    (few : forall args, expr.node.instruction = .call args -> args + 1 < sizeLimit)
    (room : expr.depth < sizeLimit) :
    perform arities options offset opcode ((left ++ expr.children).map Operand.of)
        expr.node.instruction =
      settle options offset left expr := by
  have popped : pop offset opcode expr.node.arity ((left ++ expr.children).map Operand.of) =
      .ok ⟨left.map Operand.of, expr.children.map Operand.of⟩ := by
    have found := @pop_append offset opcode (left.map Operand.of) (expr.children.map Operand.of)
    rwa [List.length_map, expr.length_children, ← List.map_append] at found
  have leaf : forall expr : Expr, expr.depth = 1 -> (.ok 1 : Guarded DecompileError Nat) =
      if max 1 options.nestingLimit < expr.depth then
        fail (.nestingTooDeep offset options.nestingLimit)
      else .ok expr.depth := by
    intro expr shallow
    rw [shallow, if_neg (by omega)]
  have trees := Decompiler.map_expr_of expr.children
  cases expr with
  | const constant =>
      rw [Expr.children, List.append_nil]
      exact settle_of_depth (leaf (.const constant) rfl)
  | param slot =>
      rw [Expr.children, List.append_nil]
      exact settle_of_depth (leaf (.param slot) rfl)
  | unary op operand =>
      simp only [Expr.node, Node.arity] at popped
      simp only [Expr.node, Node.instruction, perform, popped, ok_bind]
      exact settle_of_depth (nested_eq operand.depth_pos room)
  | binary op first second =>
      have positive : 0 < max first.depth second.depth :=
        Nat.lt_of_lt_of_le first.depth_pos (Nat.le_max_left _ _)
      simp only [Expr.node, Node.arity] at popped
      simp only [Expr.node, Node.instruction, perform, popped, ok_bind]
      exact settle_of_depth (nested_eq positive room)
  | function id args =>
      simp only [Expr.node, Node.arity] at popped
      simp only [Expr.node, Node.instruction, perform, addSize_eq (few _ rfl), popped, ok_bind,
        trees]
      exact settle_of_depth (callDepth_eq room)
  | command bank id args =>
      have count : arities bank id = some args.length := known
      simp only [Expr.node, Node.arity] at popped
      simp only [Expr.node, Node.instruction, perform, count, popped, ok_bind, trees]
      exact settle_of_depth (callDepth_eq room)

end Performing

/-! ## The guards of an execution -/

section Executing

open Decompiler (State pile)

variable {arities : ArityTable} {options : DecompileOptions}

/-- The trees left are judged alike. -/
theorem conclude_of_forest {bytes : List UInt8} {framing : Framing} {position : Nat}
    (noTrailing : framing = .terminated -> position = bytes.length)
    (noMissing : framing = .unterminated -> options.requireTerminator = false)
    (forest : List Expr) (peak : Nat) :
    conclude options bytes framing position (forest.map Operand.of) peak =
      lift (Decompiler.judge framing peak forest) := by
  have trailing : ¬ (framing = .terminated ∧ position < bytes.length) := by
    rintro ⟨marked, behind⟩
    exact Nat.lt_irrefl _ (noTrailing marked ▸ behind)
  have missing : ¬ (framing = .unterminated ∧ options.requireTerminator) := by
    rintro ⟨unmarked, required⟩
    exact Bool.false_ne_true ((noMissing unmarked).symm.trans required)
  simp only [conclude, if_neg trailing, if_neg missing, Decompiler.map_expr_of]
  rcases forest with _ | ⟨first, _ | ⟨second, others⟩⟩
  · rfl
  · rfl
  · rfl

theorem conclude_append {final : State} {front : List UInt8} {forest : List Expr}
    {framing : Framing} (stack : final.stack = pile forest) (position : final.offset = front.length)
    (whole : framing = .unterminated -> final.rest = []) :
    conclude options (front ++ final.rest) framing front.length (forest.map Operand.of)
        final.peak =
      lift (final.conclude options framing) := by
  by_cases trailing : framing = .terminated ∧ final.rest ≠ []
  · rcases trailing with ⟨rfl, behind⟩
    have inside : front.length < (front ++ final.rest).length := position_lt_iff.mpr behind
    rw [State.conclude_of_trailing behind, conclude, if_pos ⟨rfl, inside⟩, slice_append,
      position]
    rfl
  · by_cases missing : framing = .unterminated ∧ options.requireTerminator = true
    · rcases missing with ⟨rfl, required⟩
      have unmarked : ¬ (Framing.unterminated = .terminated ∧
          front.length < (front ++ final.rest).length) := nofun
      rw [State.conclude_of_missing required, conclude, if_neg unmarked, if_pos ⟨rfl, required⟩,
        whole rfl, List.append_nil, position]
      rfl
    · have noTrailing : framing = .terminated -> final.rest = [] := fun marked =>
        by_contra fun behind => trailing ⟨marked, behind⟩
      have noMissing : framing = .unterminated -> options.requireTerminator = false :=
        fun unmarked =>
        Bool.eq_false_iff.mpr fun required => missing ⟨unmarked, required⟩
      rw [State.conclude_of_pile stack noTrailing noMissing]
      refine conclude_of_forest (fun marked => ?_) noMissing forest final.peak
      rw [noTrailing marked, List.append_nil]

/-- A call that was read has few arguments. -/
theorem few_of_read {input : List UInt8} {reading : Instruction.Reading} {node : Node}
    (read : Instruction.read input = .ok reading) (same : node.instruction = reading.instruction) :
    forall args, node.instruction = .call args -> args + 1 < sizeLimit := by
  intro args call
  rcases Instruction.encode_of_read read with ⟨code, encoded, _, _⟩
  rw [← same, call, Instruction.encode] at encoded
  split at encoded
  · rw [sizeLimit]
    omega
  · cases encoded

/-- One turn of the loop of an execution. -/
theorem executeFrom_of_read {front rest operand : List UInt8} {opcode : UInt8}
    {reading : Instruction.Reading} (small : (front ++ rest).length < bufferLimit)
    (shape : rest = opcode :: operand) (read : Instruction.read rest = .ok reading)
    (stack : List Operand) (peak : Nat) :
    executeFrom arities options (front ++ rest) front.length stack peak =
      perform arities options front.length opcode stack reading.instruction >>= fun
        | none =>
          conclude options (front ++ rest) .terminated (front.length + reading.length) stack peak
        | some stack =>
          executeFrom arities options (front ++ rest) (front.length + reading.length) stack
            (max peak stack.length) := by
  have inside : front.length < (front ++ rest).length :=
    position_lt_iff.mpr (Instruction.ne_nil_of_read read)
  have here : (front ++ rest)[front.length]? = some opcode := by
    rw [shape, getElem?_append_cons]
  have moved : front.length < front.length + reading.length :=
    Nat.lt_add_of_pos_right (Instruction.length_pos_of_read read)
  rw [executeFrom, dif_pos inside, fetch_append small, read, rename_lift]
  simp only [located, Except.mapError, lift_ok, ok_bind, index, here, dif_pos moved]

/-- A tree over the last trees of a forest is at most one deeper. -/
theorem depth_le_of_children {left : List Expr} {expr : Expr} {bound : Nat}
    (shallow : Expr.depthOfAll (left ++ expr.children) ≤ bound) : expr.depth ≤ bound + 1 := by
  have each := Expr.depthOfAll_le_iff.mp shallow
  have children : Expr.depthOfAll expr.children ≤ bound :=
    Expr.depthOfAll_le_iff.mpr fun child member =>
      each child (List.mem_append_right left member)
  rw [expr.depth_eq]
  exact Nat.succ_le_succ children

/-- What is wrong with an instruction is found under guards. -/
theorem executeFrom_of_fault {front : List UInt8} {state : State} {forest : List Expr}
    {error : DecompileError} (small : (front ++ state.rest).length < bufferLimit)
    (position : state.offset = front.length)
    (shallow : Expr.depthOfAll forest ≤ front.length)
    (fault : State.Fault arities options forest state error) :
    executeFrom arities options (front ++ state.rest) front.length (forest.map Operand.of)
        state.peak =
      fail error := by
  have room : front.length + 1 < sizeLimit := advanced_lt small (by decide)
  cases fault with
  | malformed nonempty refused =>
      rw [executeFrom, dif_pos (position_lt_iff.mpr nonempty), fetch_append small, refused,
        position]
      rfl
  | unknownCommand read command unknown =>
      rcases List.exists_cons_of_ne_nil (Instruction.ne_nil_of_read read) with
        ⟨opcode, operand, shape⟩
      rw [executeFrom_of_read small shape read, command, position]
      simp only [perform, unknown]
      rfl
  | underflow read shape same known short =>
      rw [executeFrom_of_read small shape read, ← same,
        perform_short known (few_of_read read same) short, position]
      rfl
  | @nesting reading left expr read same known split deep =>
      rcases List.exists_cons_of_ne_nil (Instruction.ne_nil_of_read read) with
        ⟨opcode, operand, shape⟩
      have depth := depth_le_of_children (split ▸ shallow)
      rw [executeFrom_of_read small shape read, ← same, split,
        perform_forest known (few_of_read read same) (Nat.lt_of_le_of_lt depth room), settle,
        if_pos deep, position]
      rfl
  | @overflow reading left expr read same known split fits full =>
      rcases List.exists_cons_of_ne_nil (Instruction.ne_nil_of_read read) with
        ⟨opcode, operand, shape⟩
      have depth := depth_le_of_children (split ▸ shallow)
      rw [executeFrom_of_read small shape read, ← same, split,
        perform_forest known (few_of_read read same) (Nat.lt_of_le_of_lt depth room), settle,
        if_neg (Nat.not_lt_of_le fits), if_neg (Nat.not_lt_of_le full), position]
      rfl

/-- An execution is the same under guards.  Its trees are no deeper than bytes
were read, since the instruction of each node has a byte of its own. -/
theorem executeFrom_append {front : List UInt8} {state : State} {forest : List Expr}
    (small : (front ++ state.rest).length < bufferLimit) (stack : state.stack = pile forest)
    (position : state.offset = front.length)
    (shallow : Expr.depthOfAll forest ≤ front.length) :
    executeFrom arities options (front ++ state.rest) front.length (forest.map Operand.of)
        state.peak =
      lift (state.outcome arities options) := by
  have leads : State.Leads arities options forest state _ := State.leads_turn stack
  generalize turned : state.turn arities options = turn at leads
  cases leads with
  | ended shape =>
      have ended : ¬ front.length < (front ++ state.rest).length :=
        fun inside => position_lt_iff.mp inside shape
      rw [executeFrom, dif_neg ended, State.outcome_of_finished turned]
      exact conclude_append stack position fun _ => shape
  | @stopped reading read stop =>
      rcases List.exists_cons_of_ne_nil (Instruction.ne_nil_of_read read) with
        ⟨opcode, operand, shape⟩
      rcases @split_of_read front state.rest reading read with ⟨further, split, behind⟩
      have concluded := @conclude_append options (state.consumed reading) further forest
        .terminated stack (by rw [behind, State.consumed, position]) nofun
      rw [State.outcome_of_finished turned, ← concluded, executeFrom_of_read small shape read,
        stop, ← behind, split]
      rfl
  | failed fault =>
      rw [State.outcome_of_failed turned]
      exact executeFrom_of_fault small position shallow fault
  | @next reading left expr read same known grown fits free =>
      rcases List.exists_cons_of_ne_nil (Instruction.ne_nil_of_read read) with
        ⟨opcode, operand, shape⟩
      rcases @split_of_read front state.rest reading read with ⟨further, split, behind⟩
      have advanced := Instruction.length_pos_of_read read
      -- The new tree may be one deeper than all before it; the bytes just read make up for that.
      have depth := depth_le_of_children (grown ▸ shallow)
      have room : expr.depth < sizeLimit :=
        Nat.lt_of_le_of_lt depth (advanced_lt small (by decide))
      have still : Expr.depthOfAll (left ++ [expr]) ≤ further.length := by
        have each := Expr.depthOfAll_le_iff.mp shallow
        refine Expr.depthOfAll_le_iff.mpr fun other member => ?_
        rcases List.mem_append.mp member with before | new
        · have earlier := each other (grown ▸ List.mem_append_left _ before)
          omega
        · rw [List.mem_singleton.mp new]
          omega
      have later := @executeFrom_append further ((state.consumed reading).settled (left ++ [expr]))
        (left ++ [expr]) (split ▸ small) rfl (by rw [behind, ← position]; rfl) still
      rw [State.outcome_of_next turned, ← later, executeFrom_of_read small shape read, ← same,
        grown, perform_forest known (few_of_read read same) room, settle,
        if_neg (Nat.not_lt_of_le fits), if_pos free, ← behind, split, ok_bind]
      simp only [List.length_map]
      rfl
termination_by state.rest.length
decreasing_by exact Instruction.rest_lt_of_read read

theorem decompile_eq {bytes : List UInt8} (small : bytes.length < bufferLimit) :
    decompile arities options bytes = lift (Rpn.decompile arities options bytes) := by
  by_cases empty : bytes = []
  · subst empty
    rfl
  · have filled : ¬ bytes.isEmpty := fun nothing => empty (List.isEmpty_iff.mp nothing)
    rw [decompile, if_neg filled, decompile_eq_outcome empty]
    exact @executeFrom_append arities options [] (.start bytes) [] small rfl rfl (Nat.zero_le _)

end Executing
end Guarded
end Rpn
