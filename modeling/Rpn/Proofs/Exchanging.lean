import Mathlib.Algebra.Order.Ring.Int
import Rpn.Proofs.Assembling
import Rpn.Proofs.Rewriting

/-!
# Exchanging operands

An operator with a converse gives the same value on exchanged operands under the
converse.  Exchanging the operands of every operation that allows it stops at
such an operation and leaves what is below it alone, so the changed operations
lie beside each other and never inside one another.

Most of what the library asks of a tree is computed from its root and from what
the children come to (`Measure`).  Whatever is the same on an operation and on
the operation with exchanged operands is then the same on a tree before and after
all exchanges (`Measure.of_converseAll`): the value under every interpretation of
the language, the numbers of nodes and levels, whether the nodes may be written,
and the length of the code.  The stack need is not among them, since the operand
evaluated second stands on the value of the first.

Main statements: a tree keeps its value (`value_converseAll`); exchanging twice
gives the tree back, and with room for a value of each node the changed tree is
assembled exactly if the tree is, and to as many bytes (`converseAll_involution`).
-/

namespace Rpn

/-! ## Measures by root and children -/

/-- What is computed from the root of a tree and what the children come to. -/
structure Measure (Value : Type) where
  of : Expr -> Value
  combine : Node -> List Value -> Value
  of_eq : forall expr, of expr = combine expr.node (expr.children.map of)

namespace Measure

variable {Value : Type} (measure : Measure Value)

/-- A rule that keeps the measure of what it replaces keeps that of the tree
around it. -/
theorem of_replace {rule : Expr -> Option Expr}
    (kept : forall expr replacement, rule expr = some replacement ->
      measure.of replacement = measure.of expr) (expr : Expr) :
    measure.of (expr.replace rule) = measure.of expr := by
  induction expr using Expr.induct_children with
  | step expr inductionHypothesis =>
      cases answer : rule expr with
      | some replacement =>
          rw [Expr.replace_of_some answer]
          exact kept expr replacement answer
      | none =>
          rcases Expr.node_children_replace_of_none answer with ⟨node, children⟩
          rw [measure.of_eq, node, children, List.map_map, measure.of_eq expr]
          exact congrArg (measure.combine expr.node) (List.map_congr_left inductionHypothesis)

/-- Whether the measure of an operation does not change with its operands
exchanged. -/
def Exchangeable : Prop :=
  forall op converse left right, op.converse? = some converse ->
    measure.of (.binary converse right left) = measure.of (.binary op left right)

end Measure

namespace Expr

theorem converse?_eq_some_iff {expr exchanged : Expr} :
    expr.converse? = some exchanged ↔
      Exists fun op => Exists fun left => Exists fun right => Exists fun converse =>
        op.converse? = some converse ∧ expr = .binary op left right ∧
          exchanged = .binary converse right left := by
  constructor
  · intro found
    cases expr with
    | binary op left right =>
        rcases Option.map_eq_some_iff.mp found with ⟨converse, known, rfl⟩
        exact ⟨op, left, right, converse, known, rfl, rfl⟩
    | _ => cases found
  · rintro ⟨op, left, right, converse, known, rfl, rfl⟩
    exact Option.map_eq_some_iff.mpr ⟨converse, known, rfl⟩

theorem converse?_eq_none_iff {expr : Expr} :
    expr.converse? = none ↔ forall op, expr.node = .binary op -> op.converse? = none := by
  cases expr with
  | binary op left right =>
      rw [converse?, Option.map_eq_none_iff]
      constructor
      · rintro unknown other ⟨⟩
        exact unknown
      · intro every
        exact every op rfl
  | _ =>
      simp only [converse?, node, reduceCtorEq, false_implies, implies_true]

end Expr

namespace Measure

variable {Value : Type} {measure : Measure Value}

theorem of_converse? (exchangeable : measure.Exchangeable) {expr exchanged : Expr}
    (found : expr.converse? = some exchanged) : measure.of exchanged = measure.of expr := by
  rcases Expr.converse?_eq_some_iff.mp found with ⟨op, left, right, converse, known, rfl, rfl⟩
  exact exchangeable op converse left right known

theorem of_converseAll (exchangeable : measure.Exchangeable) (expr : Expr) :
    measure.of expr.converseAll = measure.of expr :=
  measure.of_replace (fun _ _ found => of_converse? exchangeable found) expr

end Measure

/-! ## Values -/

/-- The integer of a truth value. -/
def truth (condition : Prop) [Decidable condition] : Int :=
  if condition then 1 else 0

/-- What the parts of the language stand for that have no fixed meaning here. -/
structure Interpretation where
  constant : Constant -> Int
  param : UInt8 -> Int
  sub : Int -> Int -> Int
  div : Int -> Int -> Int
  unary : UnaryOp -> Int -> Int
  function : Int -> List Int -> Int
  command : UInt8 -> Int32 -> List Int -> Int

namespace Interpretation

/-- The value of an operation.  Sums, products, comparisons and connectives mean
what they say, and every number but zero counts as true. -/
def binary (interpretation : Interpretation) (op : BinaryOp) (left right : Int) : Int :=
  match op with
  | .add => left + right
  | .sub => interpretation.sub left right
  | .mul => left * right
  | .div => interpretation.div left right
  | .le => truth (left ≤ right)
  | .ge => truth (left ≥ right)
  | .lt => truth (left < right)
  | .gt => truth (left > right)
  | .eq => truth (left = right)
  | .ne => truth (left ≠ right)
  | .and => truth (left ≠ 0 ∧ right ≠ 0)
  | .or => truth (left ≠ 0 ∨ right ≠ 0)

mutual

/-- The value of a tree. -/
def value (interpretation : Interpretation) : Expr -> Int
  | .const constant => interpretation.constant constant
  | .param slot => interpretation.param slot
  | .unary op operand => interpretation.unary op (interpretation.value operand)
  | .binary op left right =>
    interpretation.binary op (interpretation.value left) (interpretation.value right)
  | .function id args =>
    interpretation.function (interpretation.value id) (interpretation.valueOfAll args)
  | .command bank id args => interpretation.command bank id (interpretation.valueOfAll args)

/-- The values of the trees of a list. -/
def valueOfAll (interpretation : Interpretation) : List Expr -> List Int
  | [] => []
  | expr :: rest => interpretation.value expr :: interpretation.valueOfAll rest

end

theorem valueOfAll_eq_map (interpretation : Interpretation) (forest : List Expr) :
    interpretation.valueOfAll forest = forest.map interpretation.value := by
  induction forest with
  | nil => rfl
  | cons expr rest inductionHypothesis =>
      rw [valueOfAll, inductionHypothesis, List.map_cons]

/-- The value of a node on the values of its children.  Children that the node
does not have, or has too few of, stand for nothing. -/
def apply (interpretation : Interpretation) : Node -> List Int -> Int
  | .const constant, _ => interpretation.constant constant
  | .param slot, _ => interpretation.param slot
  | .unary op, [operand] => interpretation.unary op operand
  | .binary op, [left, right] => interpretation.binary op left right
  | .function _, id :: args => interpretation.function id args
  | .command bank id _, args => interpretation.command bank id args
  | _, _ => 0

/-- The value as a measure. -/
def measure (interpretation : Interpretation) : Measure Int where
  of := interpretation.value
  combine := interpretation.apply
  of_eq := by
    intro expr
    cases expr <;>
      simp only [value, valueOfAll_eq_map, Expr.node, Expr.children, List.map_cons, List.map_nil,
        apply]

/-- The table of converses is right, operator by operator. -/
theorem binary_converse (interpretation : Interpretation) {op converse : BinaryOp}
    (known : op.converse? = some converse) (left right : Int) :
    interpretation.binary converse right left = interpretation.binary op left right := by
  cases op with
  | add =>
      cases known
      exact Int.add_comm right left
  | mul =>
      cases known
      exact Int.mul_comm right left
  | eq =>
      cases known
      simp only [binary, eq_comm]
  | ne =>
      cases known
      simp only [binary, ne_comm]
  | and =>
      cases known
      simp only [binary, and_comm]
  | or =>
      cases known
      simp only [binary, or_comm]
  | lt | gt | le | ge =>
      cases known
      rfl
  | sub | div => cases known

theorem exchangeable (interpretation : Interpretation) :
    interpretation.measure.Exchangeable := by
  intro op converse left right known
  exact interpretation.binary_converse known (interpretation.value left)
    (interpretation.value right)

end Interpretation

namespace Expr

/-- Exchanging operands, in one operation or in all that allow it, changes no
value under any interpretation. -/
theorem value_converseAll (interpretation : Interpretation) (expr : Expr) :
    interpretation.value expr.converseAll = interpretation.value expr ∧
      forall exchanged, expr.converse? = some exchanged ->
        interpretation.value exchanged = interpretation.value expr :=
  ⟨Measure.of_converseAll interpretation.exchangeable expr,
    fun _ found => Measure.of_converse? interpretation.exchangeable found⟩

/-- A function that is identified by a comparison, and a command on a difference
of a conjunction and a sum.  The difference stays, and so does the comparison
under the sum. -/
def mixedCall : Expr :=
  .function (.binary .lt (.param 0) (ofInt 3))
    [.command 6 12
      [.binary .sub (.binary .and (.param 1) (ofInt 5))
        (.binary .add (ofInt 2) (.binary .le (.param 0) (.param 1)))]]

/-- The same with the operands of the comparison, the conjunction and the sum
exchanged. -/
def exchangedCall : Expr :=
  .function (.binary .gt (ofInt 3) (.param 0))
    [.command 6 12
      [.binary .sub (.binary .and (ofInt 5) (.param 1))
        (.binary .add (.binary .le (.param 0) (.param 1)) (ofInt 2))]]

/-- Parameters stand for their numbers, and a function adds up what it is given. -/
def adding : Interpretation where
  constant := fun constant => constant.int?.getD 0
  param := fun slot => slot.toNat
  sub := fun left right => left - right
  div := fun left right => left / right
  unary := fun _ operand => -operand
  function := fun id args => id + args.sum
  command := fun _ _ args => args.sum

theorem value_converseAll_mixedCall :
    mixedCall.converseAll = exchangedCall ∧
      adding.value mixedCall.converseAll = adding.value mixedCall ∧
      (binary .lt (.param 0) (ofInt 3)).converse? = some (.binary .gt (ofInt 3) (.param 0)) ∧
      adding.value (.binary .gt (ofInt 3) (.param 0)) =
        adding.value (.binary .lt (.param 0) (ofInt 3)) := by
  have found : (binary .lt (.param 0) (ofInt 3)).converse? =
      some (.binary .gt (ofInt 3) (.param 0)) := rfl
  exact ⟨rfl, (value_converseAll adding mixedCall).1, found,
    (value_converseAll adding (.binary .lt (.param 0) (ofInt 3))).2 _ found⟩

/-! ## Exchanging twice -/

theorem converseAll_converseAll (expr : Expr) : expr.converseAll.converseAll = expr := by
  induction expr using induct_children with
  | step expr inductionHypothesis =>
      cases answer : expr.converse? with
      | some exchanged =>
          rcases converse?_eq_some_iff.mp answer with ⟨op, left, right, converse, known, rfl, rfl⟩
          rw [converseAll, converseAll, replace_of_some answer]
          apply replace_of_some
          exact converse?_eq_some_iff.mpr ⟨converse, right, left, op,
            BinaryOp.converse?_involutive known, rfl, rfl⟩
      | none =>
          rcases node_children_replace_of_none answer with ⟨node, children⟩
          -- The root is what it was, so the second pass goes on where the first did.
          have again : expr.converseAll.converse? = none := by
            apply converse?_eq_none_iff.mpr
            intro op root
            exact converse?_eq_none_iff.mp answer op (node.symm.trans root)
          rcases node_children_replace_of_none again with ⟨nodes, below⟩
          apply eq_of_children_fixed (nodes.trans node) (below.trans _) inductionHypothesis
          rw [converseAll, children, List.map_map]
          rfl

/-! ## What is assembled -/

theorem depthOfAll_eq_foldr (forest : List Expr) :
    depthOfAll forest = (forest.map depth).foldr max 0 := by
  induction forest with
  | nil => rfl
  | cons expr rest inductionHypothesis =>
      rw [depthOfAll, inductionHypothesis, List.map_cons, List.foldr_cons]

end Expr

namespace Measure

def nodeCount : Measure Nat where
  of := Expr.nodeCount
  combine := fun _ counts => counts.sum + 1
  of_eq := by
    intro expr
    rw [Expr.nodeCount_eq, Expr.nodeCountOfAll_eq_sum]

def depth : Measure Nat where
  of := Expr.depth
  combine := fun _ depths => depths.foldr max 0 + 1
  of_eq := by
    intro expr
    rw [Expr.depth_eq, Expr.depthOfAll_eq_foldr]

/-- The number of bytes of the code. -/
def size : Measure Nat where
  of := fun expr => expr.code.length
  combine := fun node sizes => sizes.sum + node.code.length
  of_eq := by
    intro expr
    rw [Expr.code_eq, List.length_append, List.length_flatMap]

/-- Whether every node may be written. -/
def admitted (arities? : Option ArityTable) : Measure Prop where
  of := Expr.Admitted arities?
  combine := fun node children =>
    (forall child, child ∈ children -> child) ∧ node.Admitted arities?
  of_eq := by
    intro expr
    rw [List.forall_mem_map]
    exact propext Expr.admitted_iff

theorem exchangeable_nodeCount : nodeCount.Exchangeable := by
  intro op converse left right known
  exact congrArg Nat.succ (Nat.add_comm right.nodeCount left.nodeCount)

theorem exchangeable_depth : depth.Exchangeable := by
  intro op converse left right known
  exact congrArg Nat.succ (Nat.max_comm right.depth left.depth)

theorem exchangeable_size : size.Exchangeable := by
  intro op converse left right known
  change (Expr.code (.binary converse right left)).length =
    (Expr.code (.binary op left right)).length
  rw [Expr.code_eq, Expr.code_eq (.binary op left right)]
  simp only [Expr.children, List.flatMap_cons, List.flatMap_nil, List.append_nil,
    List.length_append, Nat.add_comm right.code.length]
  rfl

theorem exchangeable_admitted (arities? : Option ArityTable) :
    (admitted arities?).Exchangeable := by
  intro op converse left right known
  have operator : forall op, (Node.binary op).Admitted arities? :=
    fun _ => ⟨⟨_, rfl⟩, fun _ _ => trivial⟩
  apply propext
  change Expr.Admitted arities? (.binary converse right left) ↔
    Expr.Admitted arities? (.binary op left right)
  rw [Expr.admitted_iff, Expr.admitted_iff]
  simp only [Expr.children, List.forall_mem_cons, List.not_mem_nil, false_implies, implies_true,
    and_true, Expr.node, operator]
  exact and_comm

end Measure

namespace Expr

/-- With room for a value of each node, a tree is assembled exactly if its nodes
may be written and it does not nest too deep. -/
theorem exists_assemble_iff {options : AssemblyOptions} {arities? : Option ArityTable}
    {expr : Expr} (room : expr.nodeCount ≤ options.stackLimit) :
    (Exists fun assembled => expr.assemble options arities? = .ok assembled) ↔
      expr.Admitted arities? ∧ expr.depth ≤ max 1 options.nestingLimit := by
  constructor
  · rintro ⟨assembled, done⟩
    rcases assemble_eq_ok_iff.mp done with ⟨admitted, shallow, _, _⟩
    exact ⟨admitted, shallow⟩
  · rintro ⟨admitted, shallow⟩
    exact ⟨_, assemble_eq_ok_iff.mpr
      ⟨admitted, shallow, Nat.le_trans expr.need_le_nodeCount room, rfl⟩⟩

/-- Exchanging all operands twice gives the tree back.  Once, it keeps the numbers
of nodes and levels, and with room for a value of each node it keeps whether the
tree is assembled, and to how many bytes. -/
theorem converseAll_involution (expr : Expr) :
    expr.converseAll.converseAll = expr ∧
    expr.converseAll.nodeCount = expr.nodeCount ∧
    expr.converseAll.depth = expr.depth ∧
    forall (options : AssemblyOptions) (arities? : Option ArityTable),
      expr.nodeCount ≤ options.stackLimit ->
        ((Exists fun assembled => expr.converseAll.assemble options arities? = .ok assembled) ↔
          Exists fun assembled => expr.assemble options arities? = .ok assembled) ∧
        forall assembled exchanged, expr.assemble options arities? = .ok assembled ->
          expr.converseAll.assemble options arities? = .ok exchanged ->
            exchanged.bytes.length = assembled.bytes.length := by
  have nodeCount : expr.converseAll.nodeCount = expr.nodeCount :=
    Measure.of_converseAll Measure.exchangeable_nodeCount expr
  have depth : expr.converseAll.depth = expr.depth :=
    Measure.of_converseAll Measure.exchangeable_depth expr
  have size : expr.converseAll.code.length = expr.code.length :=
    Measure.of_converseAll Measure.exchangeable_size expr
  refine ⟨expr.converseAll_converseAll, nodeCount, depth, ?_⟩
  intro options arities? room
  have admitted : expr.converseAll.Admitted arities? = expr.Admitted arities? :=
    Measure.of_converseAll (Measure.exchangeable_admitted arities?) expr
  constructor
  · rw [exists_assemble_iff room, exists_assemble_iff (nodeCount ▸ room), admitted, depth]
  · intro assembled exchanged done exchangedDone
    rcases assemble_eq_ok_iff.mp done with ⟨_, _, _, rfl⟩
    rcases assemble_eq_ok_iff.mp exchangedDone with ⟨_, _, _, rfl⟩
    simp only [List.length_append, size]

/-- The call needs five values on the stack, and four with its operands exchanged.
Room for its fourteen nodes is enough for both. -/
theorem converseAll_involution_mixedCall :
    mixedCall.nodeCount ≤ 14 ∧
      mixedCall.assemble ⟨.terminated, 14, 6⟩ (some (.ofRows [(6, 12, 1)])) =
        .ok ⟨[0xAF, 0x43, 0x93, 0xB0, 0x45, 0x98, 0x42, 0xAF, 0xB0, 0x91, 0x8D, 0x8E, 0x8B, 0x06,
          0x0C, 0x00, 0x00, 0x00, 0x85, 0xA1], 5⟩ ∧
      mixedCall.converseAll.assemble ⟨.terminated, 14, 6⟩ (some (.ofRows [(6, 12, 1)])) =
        .ok ⟨[0x43, 0xAF, 0x94, 0x45, 0xB0, 0x98, 0xAF, 0xB0, 0x91, 0x42, 0x8D, 0x8E, 0x8B, 0x06,
          0x0C, 0x00, 0x00, 0x00, 0x85, 0xA1], 4⟩ ∧
      mixedCall.converseAll.converseAll = mixedCall ∧
      mixedCall.converseAll.depth = mixedCall.depth ∧
      (Exists fun exchanged => mixedCall.converseAll.assemble ⟨.terminated, 14, 6⟩
        (some (.ofRows [(6, 12, 1)])) = .ok exchanged ∧ exchanged.bytes.length = 20) := by
  have room : mixedCall.nodeCount ≤ 14 := by decide
  have done : mixedCall.assemble ⟨.terminated, 14, 6⟩ (some (.ofRows [(6, 12, 1)])) =
      .ok ⟨[0xAF, 0x43, 0x93, 0xB0, 0x45, 0x98, 0x42, 0xAF, 0xB0, 0x91, 0x8D, 0x8E, 0x8B, 0x06,
        0x0C, 0x00, 0x00, 0x00, 0x85, 0xA1], 5⟩ := by decide +kernel
  have exchangedDone :
      mixedCall.converseAll.assemble ⟨.terminated, 14, 6⟩ (some (.ofRows [(6, 12, 1)])) =
        .ok ⟨[0x43, 0xAF, 0x94, 0x45, 0xB0, 0x98, 0xAF, 0xB0, 0x91, 0x42, 0x8D, 0x8E, 0x8B, 0x06,
          0x0C, 0x00, 0x00, 0x00, 0x85, 0xA1], 4⟩ := by decide +kernel
  rcases converseAll_involution mixedCall with ⟨twice, _, depth, assembled⟩
  rcases assembled ⟨.terminated, 14, 6⟩ (some (.ofRows [(6, 12, 1)])) room with ⟨accepted, size⟩
  rcases accepted.mpr ⟨_, done⟩ with ⟨exchanged, again⟩
  exact ⟨room, done, exchangedDone, twice, depth, exchanged, again, size _ exchanged done again⟩

end Expr
end Rpn
