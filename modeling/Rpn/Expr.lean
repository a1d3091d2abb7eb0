import Rpn.Instruction

/-!
# Expression trees

A tree holds constants, parameters, operators and calls.  A function is
identified by an expression of its own, which is evaluated before the
arguments and so counts as the first child; a command is identified by a bank
and a number.

`Node` is a tree without its children.  A node knows how many children it
takes, and it can be put together with a list of them; that succeeds exactly
for as many as it takes.  Listing the nodes of a tree, children before
parents, is the order in which the tree is evaluated and encoded.
-/

namespace Rpn

/-- An expression. -/
inductive Expr
  | const (constant : Constant)
  | param (slot : UInt8)
  | unary (op : UnaryOp) (operand : Expr)
  | binary (op : BinaryOp) (left right : Expr)
  | function (id : Expr) (args : List Expr)
  | command (bank : UInt8) (id : Int32) (args : List Expr)

/-- One node of an expression: what it is and, for a call, how many arguments
it has. -/
inductive Node
  | const (constant : Constant)
  | param (slot : UInt8)
  | unary (op : UnaryOp)
  | binary (op : BinaryOp)
  | function (args : Nat)
  | command (bank : UInt8) (id : Int32) (args : Nat)
  deriving DecidableEq

namespace Node

/-- The number of children.  The identifier of a function is one of them. -/
def arity : Node -> Nat
  | const _ | param _ => 0
  | unary _ => 1
  | binary _ => 2
  | function args => args + 1
  | command _ _ args => args

/-- The instruction that evaluates the node once its children are on the
stack.  The argument count of a command is not part of it. -/
def instruction : Node -> Instruction
  | const constant => .push constant
  | param slot => .param slot
  | unary op => .unary op
  | binary op => .binary op
  | function args => .call args
  | command bank id _ => .command bank id

/-- The tree of a node and its children, if their number is right. -/
def build? : Node -> List Expr -> Option Expr
  | const constant, [] => some (.const constant)
  | param slot, [] => some (.param slot)
  | unary op, [operand] => some (.unary op operand)
  | binary op, [left, right] => some (.binary op left right)
  | function count, id :: args =>
    if args.length = count then some (.function id args) else none
  | command bank id count, args =>
    if args.length = count then some (.command bank id args) else none
  | _, _ => none

end Node

namespace Expr

/-- An integer constant at its canonical width. -/
def ofInt (value : Int) : Expr :=
  .const (.ofInt value)

/-- The root of a tree. -/
def node : Expr -> Node
  | const constant => .const constant
  | param slot => .param slot
  | unary op _ => .unary op
  | binary op _ _ => .binary op
  | function _ args => .function args.length
  | command bank id args => .command bank id args.length

/-- The children in evaluation order. -/
def children : Expr -> List Expr
  | const _ | param _ => []
  | unary _ operand => [operand]
  | binary _ left right => [left, right]
  | function id args => id :: args
  | command _ _ args => args

/-- The constant, if the tree is one. -/
def constant? : Expr -> Option Constant
  | const constant => some constant
  | _ => none

/-- The value of an integer constant. -/
def int? (expr : Expr) : Option Int :=
  expr.constant?.bind Constant.int?

/-- Induction over trees, with the hypothesis for every argument of a call. -/
@[elab_as_elim, induction_eliminator]
theorem induct {motive : Expr -> Prop}
    (const : forall constant, motive (.const constant))
    (param : forall slot, motive (.param slot))
    (unary : forall op operand, motive operand -> motive (.unary op operand))
    (binary : forall op left right, motive left -> motive right -> motive (.binary op left right))
    (function : forall id args, motive id -> (forall arg, arg ∈ args -> motive arg) ->
      motive (.function id args))
    (command : forall bank id args, (forall arg, arg ∈ args -> motive arg) ->
      motive (.command bank id args))
    (expr : Expr) : motive expr :=
  @Expr.rec motive (fun args => forall arg, arg ∈ args -> motive arg)
    const param unary binary function command
    (fun _ member => nomatch member)
    (fun _ _ first others arg member => by
      cases member with
      | head => exact first
      | tail _ member => exact others arg member)
    expr

mutual

/-- Trees are equal when they have equal nodes in equal places. -/
def decEq : (first second : Expr) -> Decidable (first = second)
  | const a, const b => decidable_of_iff (a = b) (by simp)
  | param a, param b => decidable_of_iff (a = b) (by simp)
  | unary op a, unary op' b =>
    match decEq a b with
    | isTrue same => decidable_of_iff (op = op') (by simp [same])
    | isFalse different => isFalse (by simp [different])
  | binary op a b, binary op' a' b' =>
    match decEq a a', decEq b b' with
    | isTrue left, isTrue right => decidable_of_iff (op = op') (by simp [left, right])
    | isFalse different, _ => isFalse (by simp [different])
    | _, isFalse different => isFalse (by simp [different])
  | function id args, function id' args' =>
    match decEq id id', decEqList args args' with
    | isTrue left, isTrue right => isTrue (by simp [left, right])
    | isFalse different, _ => isFalse (by simp [different])
    | _, isFalse different => isFalse (by simp [different])
  | command bank id args, command bank' id' args' =>
    match decEqList args args' with
    | isTrue same => decidable_of_iff (bank = bank' ∧ id = id') (by simp [same])
    | isFalse different => isFalse (by simp [different])
  | const _, param _ | const _, unary _ _ | const _, binary _ _ _ | const _, function _ _
  | const _, command _ _ _ => isFalse nofun
  | param _, const _ | param _, unary _ _ | param _, binary _ _ _ | param _, function _ _
  | param _, command _ _ _ => isFalse nofun
  | unary _ _, const _ | unary _ _, param _ | unary _ _, binary _ _ _
  | unary _ _, function _ _ | unary _ _, command _ _ _ => isFalse nofun
  | binary _ _ _, const _ | binary _ _ _, param _ | binary _ _ _, unary _ _
  | binary _ _ _, function _ _ | binary _ _ _, command _ _ _ => isFalse nofun
  | function _ _, const _ | function _ _, param _ | function _ _, unary _ _
  | function _ _, binary _ _ _ | function _ _, command _ _ _ => isFalse nofun
  | command _ _ _, const _ | command _ _ _, param _ | command _ _ _, unary _ _
  | command _ _ _, binary _ _ _ | command _ _ _, function _ _ => isFalse nofun

/-- Lists of trees are equal when they are so position by position. -/
def decEqList : (first second : List Expr) -> Decidable (first = second)
  | [], [] => isTrue rfl
  | [], _ :: _ | _ :: _, [] => isFalse nofun
  | a :: as, b :: bs =>
    match decEq a b, decEqList as bs with
    | isTrue left, isTrue right => isTrue (by simp [left, right])
    | isFalse different, _ => isFalse (by simp [different])
    | _, isFalse different => isFalse (by simp [different])

end

instance instDecidableEq : DecidableEq Expr :=
  decEq

/-! ## Measures -/

mutual

/-- The number of nodes on the longest path from the root to a leaf. -/
def depth : Expr -> Nat
  | const _ | param _ => 1
  | unary _ operand => operand.depth + 1
  | binary _ left right => max left.depth right.depth + 1
  | function id args => max id.depth (depthOfAll args) + 1
  | command _ _ args => depthOfAll args + 1

/-- The depth of the deepest tree of a list, zero for none. -/
def depthOfAll : List Expr -> Nat
  | [] => 0
  | expr :: rest => max expr.depth (depthOfAll rest)

end

mutual

/-- The number of nodes. -/
def nodeCount : Expr -> Nat
  | const _ | param _ => 1
  | unary _ operand => operand.nodeCount + 1
  | binary _ left right => left.nodeCount + right.nodeCount + 1
  | function id args => id.nodeCount + nodeCountOfAll args + 1
  | command _ _ args => nodeCountOfAll args + 1

/-- The number of nodes of all trees of a list. -/
def nodeCountOfAll : List Expr -> Nat
  | [] => 0
  | expr :: rest => expr.nodeCount + nodeCountOfAll rest

end

/-- The depth by way of the children, the same for every kind of node. -/
theorem depth_eq (expr : Expr) : expr.depth = depthOfAll expr.children + 1 := by
  cases expr <;> simp only [depth, children, depthOfAll, Nat.max_zero]

/-- The node count by way of the children. -/
theorem nodeCount_eq (expr : Expr) : expr.nodeCount = nodeCountOfAll expr.children + 1 := by
  cases expr <;> simp only [nodeCount, children, nodeCountOfAll, Nat.add_zero, Nat.zero_add]

/-! ## Post-order -/

mutual

/-- The nodes with every child before its parent, followed by `rest`. -/
def postorderThen : Expr -> List Node -> List Node
  | const constant, rest => .const constant :: rest
  | param slot, rest => .param slot :: rest
  | unary op operand, rest => operand.postorderThen (.unary op :: rest)
  | binary op left right, rest =>
    left.postorderThen (right.postorderThen (.binary op :: rest))
  | function id args, rest =>
    id.postorderThen (postorderOfAllThen args (.function args.length :: rest))
  | command bank id args, rest =>
    postorderOfAllThen args (.command bank id args.length :: rest)

/-- The nodes of several trees in turn, followed by `rest`. -/
def postorderOfAllThen : List Expr -> List Node -> List Node
  | [], rest => rest
  | expr :: others, rest => expr.postorderThen (postorderOfAllThen others rest)

end

/-- The nodes with every child before its parent. -/
def postorder (expr : Expr) : List Node :=
  expr.postorderThen []

end Expr

namespace Node

/-- Put a node on a stack of finished trees, top first: it takes its children
from the stack, the last one from the top.  A child is missing exactly when
the tree cannot be built from what is there. -/
def push? (node : Node) (stack : List Expr) : Option (List Expr) :=
  (node.build? (stack.take node.arity).reverse).map fun expr => expr :: stack.drop node.arity

/-- The trees of a list of nodes in post-order, the last finished first. -/
def trees? (nodes : List Node) : Option (List Expr) :=
  nodes.foldlM (fun stack node => node.push? stack) []

theorem build?_children (expr : Expr) : expr.node.build? expr.children = some expr := by
  cases expr <;> simp [Expr.node, Expr.children, build?]

/-- A built tree is made of the node and the children it was built from. -/
theorem node_children_of_build? {node : Node} {children : List Expr} {expr : Expr}
    (built : node.build? children = some expr) :
    expr.node = node ∧ expr.children = children := by
  unfold build? at built
  split at built <;> try split at built
  all_goals cases built
  all_goals simp_all [Expr.node, Expr.children]

end Node
end Rpn
