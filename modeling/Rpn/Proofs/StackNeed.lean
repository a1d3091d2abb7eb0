import Rpn.Proofs.Emission
import Rpn.Proofs.Postorder

/-!
# The stack need of a tree

The stack need of a tree is the greatest number of values on the stack while
the tree is evaluated on an empty one.  It is a recursion over the tree alone:
the `i`-th child is evaluated above the values of the `i` children before it.

The assembler finds the same number another way.  It keeps the height of a
simulated stack and moves it by the net effect of each node, which for most
nodes is less than what the node takes and puts.  The two agree because a node
is written only when its operands are on the stack (`Assembler.account_extend`).
-/

namespace Rpn
namespace Expr

mutual

/-- The greatest number of values on the stack while the tree is evaluated on
an empty one. -/
def need : Expr -> Nat
  | const _ | param _ => 1
  | unary _ operand => operand.need
  | binary _ left right => max left.need (right.need + 1)
  | function id args => max id.need (needOfAll args + 1)
  | command _ _ args => max 1 (needOfAll args)

/-- The same for trees evaluated one after another, whose values are kept. -/
def needOfAll : List Expr -> Nat
  | [] => 0
  | expr :: rest => max expr.need (needOfAll rest + 1)

end

theorem need_pos (expr : Expr) : 0 < expr.need := by
  induction expr with
  | const constant => exact Nat.zero_lt_one
  | param slot => exact Nat.zero_lt_one
  | unary op operand operandHypothesis => exact operandHypothesis
  | binary op left right leftHypothesis rightHypothesis =>
      exact Nat.lt_of_lt_of_le leftHypothesis (Nat.le_max_left _ _)
  | function id args idHypothesis argsHypothesis =>
      exact Nat.lt_of_lt_of_le idHypothesis (Nat.le_max_left _ _)
  | command bank id args argsHypothesis =>
      exact Nat.lt_of_lt_of_le Nat.zero_lt_one (Nat.le_max_left _ _)

theorem need_eq (expr : Expr) : expr.need = max 1 (needOfAll expr.children) := by
  cases expr with
  | const constant => rfl
  | param slot => rfl
  | unary op operand =>
      have positive := operand.need_pos
      simp only [need, children, needOfAll]
      omega
  | binary op left right =>
      have positive := right.need_pos
      simp only [need, children, needOfAll]
      omega
  | function id args =>
      have positive := id.need_pos
      simp only [need, children, needOfAll]
      omega
  | command bank id args => rfl

/-- Trees that are evaluated later stand on the values of the earlier ones. -/
theorem needOfAll_append (first second : List Expr) :
    max first.length (needOfAll (first ++ second)) =
      max (needOfAll first) (first.length + needOfAll second) := by
  induction first with
  | nil => simp only [List.nil_append, List.length_nil, needOfAll, Nat.zero_add]
  | cons expr rest inductionHypothesis =>
      simp only [List.cons_append, List.length_cons, needOfAll]
      omega

theorem length_le_needOfAll (forest : List Expr) : forest.length ≤ needOfAll forest := by
  induction forest with
  | nil => exact Nat.le_refl 0
  | cons expr rest inductionHypothesis =>
      simp only [List.length_cons, needOfAll]
      omega

/-- The need of a list is the greatest sum of a place and the need of the tree
there. -/
theorem needOfAll_le_iff {forest : List Expr} {bound : Nat} :
    needOfAll forest ≤ bound ↔
      forall place (within : place < forest.length), place + forest[place].need ≤ bound := by
  induction forest generalizing bound with
  | nil =>
      exact ⟨fun _ place within => absurd within (Nat.not_lt_zero place),
        fun _ => Nat.zero_le bound⟩
  | cons expr rest inductionHypothesis =>
      have positive := expr.need_pos
      rw [needOfAll, Nat.max_le]
      constructor
      · rintro ⟨first, others⟩ place within
        cases place with
        | zero => simpa only [Nat.zero_add, List.getElem_cons_zero] using first
        | succ place =>
            have later := inductionHypothesis.mp (Nat.le_sub_of_add_le others) place
              (Nat.lt_of_succ_lt_succ within)
            simp only [List.getElem_cons_succ]
            omega
      · intro every
        have first := every 0 (Nat.succ_pos _)
        simp only [List.getElem_cons_zero, Nat.zero_add] at first
        have others : needOfAll rest ≤ bound - 1 := by
          apply inductionHypothesis.mpr
          intro place within
          have later := every (place + 1) (Nat.succ_lt_succ within)
          simp only [List.getElem_cons_succ] at later
          omega
        exact ⟨first, by omega⟩

private theorem needOfAll_le_nodeCountOfAll_of_mem {forest : List Expr}
    (each : forall expr, expr ∈ forest -> expr.need ≤ expr.nodeCount) :
    needOfAll forest ≤ nodeCountOfAll forest := by
  induction forest with
  | nil => exact Nat.le_refl 0
  | cons expr rest inductionHypothesis =>
      have parts := List.forall_mem_cons.mp each
      have others := inductionHypothesis parts.2
      have positive := expr.need_pos
      simp only [needOfAll, nodeCountOfAll]
      omega

/-- Every value that is ever on the stack was put there by a node of its own. -/
theorem need_le_nodeCount (expr : Expr) : expr.need ≤ expr.nodeCount := by
  induction expr using induct_children with
  | step expr inductionHypothesis =>
      have children := needOfAll_le_nodeCountOfAll_of_mem inductionHypothesis
      rw [need_eq, nodeCount_eq]
      omega

theorem needOfAll_le_nodeCountOfAll (forest : List Expr) :
    needOfAll forest ≤ nodeCountOfAll forest :=
  needOfAll_le_nodeCountOfAll_of_mem fun expr _ => expr.need_le_nodeCount

/-- Evaluating a node whose children have been evaluated reaches at most one
value above those beneath it. -/
theorem needOfAll_append_singleton (left : List Expr) (expr : Expr) :
    needOfAll (left ++ [expr]) = max (needOfAll (left ++ expr.children)) (left.length + 1) := by
  have whole := needOfAll_append left [expr]
  have parts := needOfAll_append left expr.children
  have enough := length_le_needOfAll (left ++ [expr])
  have enoughParts := length_le_needOfAll (left ++ expr.children)
  rw [List.length_append] at enough enoughParts
  have below := length_le_needOfAll left
  have uniform := expr.need_eq
  simp only [needOfAll] at whole
  omega

end Expr

/-! ## The simulated stack -/

namespace Assembler

/-- The assembler after `code` that leaves `count` values on the stack and has
`need` values there at most, both not counting what was there before. -/
def extend (assembler : Assembler) (code : List UInt8) (count need : Nat) : Assembler where
  bytes := assembler.bytes ++ code
  height := assembler.height + count
  peak := max assembler.peak (assembler.height + need)

theorem extend_nil (assembler : Assembler) (bounded : assembler.height ≤ assembler.peak) :
    assembler.extend [] 0 0 = assembler := by
  simp only [extend, Array.appendList_nil, Nat.add_zero, Nat.max_eq_left bounded]

theorem extend_extend (assembler : Assembler) (first second : List UInt8)
    (firstCount secondCount firstNeed secondNeed : Nat) :
    (assembler.extend first firstCount firstNeed).extend second secondCount secondNeed =
      assembler.extend (first ++ second) (firstCount + secondCount)
        (max firstNeed (firstCount + secondNeed)) := by
  simp only [extend, Assembler.mk.injEq]
  refine ⟨?_, by omega, by omega⟩
  apply Array.toList_inj.mp
  simp only [Array.toList_appendList, List.append_assoc]

/-- The account of a node is right where its operands are on the stack: the
result stands in their place, and nothing above it is ever needed. -/
theorem account_extend (assembler : Assembler) (node : Node) (code : List UInt8) {need : Nat}
    (enough : node.arity ≤ need) :
    ((assembler.extend code node.arity need).write node.code).account node =
      assembler.extend (code ++ node.code) 1 (max 1 need) := by
  have joined : (assembler.bytes ++ code) ++ node.code = assembler.bytes ++ (code ++ node.code) := by
    apply Array.toList_inj.mp
    simp only [Array.toList_appendList, List.append_assoc]
  cases node <;>
    simp only [Node.arity] at enough <;>
    simp only [account, write, extend, put, take, joined, Node.arity, Assembler.mk.injEq,
      true_and] <;>
    omega

end Assembler
end Rpn
