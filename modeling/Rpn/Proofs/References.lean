import Rpn.Proofs.Replacing

/-!
# References to a parameter

Replacing a parameter obeys the laws of substitution.  The order of two
replacements does not matter, provided that the tree put in first has the second
replacement made in it too and that the tree put in second does not bring the
first parameter back.  A tree without references to a parameter is left as it
is, and so is every tree whose references are replaced by the reference itself.

References are counted over the tree (`references`), and counting them agrees
with counting the nodes in post-order (`references_eq_count`).  A replacement
changes the nodes in post-order one reference at a time
(`postorder_replaceParam`), so what it does to every count of nodes is one fact
about lists (`countP_replaceParam`).

Main statement: `replaceParam_laws`.
-/

namespace Rpn
namespace Expr

mutual

/-- The number of references to a parameter: under operators, among the
arguments of both kinds of call, and in the identifiers of functions. -/
def references (slot : UInt8) : Expr -> Nat
  | const _ => 0
  | param found => if found = slot then 1 else 0
  | unary _ operand => operand.references slot
  | binary _ left right => left.references slot + right.references slot
  | function id args => id.references slot + referencesInAll slot args
  | command _ _ args => referencesInAll slot args

/-- The number of references in all trees of a list. -/
def referencesInAll (slot : UInt8) : List Expr -> Nat
  | [] => 0
  | expr :: rest => expr.references slot + referencesInAll slot rest

end

theorem references_eq (slot : UInt8) (expr : Expr) :
    expr.references slot =
      referencesInAll slot expr.children + if expr.node = .param slot then 1 else 0 := by
  cases expr with
  | param found =>
      simp only [references, children, referencesInAll, node, Node.param.injEq, Nat.zero_add]
  | _ =>
      simp only [references, children, referencesInAll, node, reduceCtorEq, if_false,
        Nat.add_zero]

private theorem referencesInAll_of_mem {slot : UInt8} {forest : List Expr}
    (each : forall expr, expr ∈ forest ->
      expr.references slot = expr.postorder.count (.param slot)) :
    referencesInAll slot forest = (forest.flatMap postorder).count (.param slot) := by
  induction forest with
  | nil => rfl
  | cons expr rest inductionHypothesis =>
      have parts := List.forall_mem_cons.mp each
      rw [referencesInAll, parts.1, inductionHypothesis parts.2, List.flatMap_cons,
        List.count_append]

/-- A reference is a node like any other. -/
theorem references_eq_count (slot : UInt8) (expr : Expr) :
    expr.references slot = expr.postorder.count (.param slot) := by
  induction expr using induct_children with
  | step expr inductionHypothesis =>
      rw [references_eq, referencesInAll_of_mem inductionHypothesis, postorder_eq,
        List.count_append, List.count_singleton]
      simp only [beq_iff_eq]

theorem references_eq_zero_iff {slot : UInt8} {expr : Expr} :
    expr.references slot = 0 ↔
      (forall child, child ∈ expr.children -> child.references slot = 0) ∧
        expr.node ≠ .param slot := by
  have absent : forall expr : Expr, expr.references slot = 0 ↔
      forall node, node ∈ expr.postorder -> node ≠ .param slot := by
    intro expr
    rw [references_eq_count, List.count_eq_zero]
    exact ⟨fun missing node member same => missing (same ▸ member),
      fun every member => every _ member rfl⟩
  simp only [absent]
  exact forall_mem_postorder_iff

/-! ## Counting nodes -/

/-- Every count of nodes after a replacement: each reference, if it was counted,
is lost, and the nodes of the replacement are found in its place. -/
theorem countP_replaceParam (slot : UInt8) (replacement expr : Expr) (counted : Node -> Bool) :
    (expr.replaceParam slot replacement).postorder.countP counted +
        expr.references slot * (if counted (.param slot) then 1 else 0) =
      expr.postorder.countP counted +
        expr.references slot * replacement.postorder.countP counted := by
  rw [postorder_replaceParam, references_eq_count]
  induction expr.postorder with
  | nil => simp only [List.flatMap_nil, List.countP_nil, List.count_nil, Nat.zero_mul]
  | cons node rest inductionHypothesis =>
      rw [List.flatMap_cons, List.countP_append, List.countP_cons, List.count_cons]
      by_cases found : node = .param slot
      · simp only [found, if_true, beq_self_eq_true, Nat.add_mul, Nat.one_mul]
        omega
      · simp only [if_neg found, List.countP_singleton, beq_iff_eq, Nat.add_zero]
        omega

/-- The references to any parameter after a replacement. -/
theorem references_replaceParam (slot other : UInt8) (replacement expr : Expr) :
    (expr.replaceParam slot replacement).references other =
      (if other = slot then 0 else expr.references other) +
        expr.references slot * replacement.references other := by
  have counted := countP_replaceParam slot replacement expr (· == .param other)
  simp only [← List.count_eq_countP, ← references_eq_count, beq_iff_eq, Node.param.injEq]
    at counted
  by_cases same : other = slot
  · subst other
    rw [if_pos rfl] at counted ⊢
    omega
  · rw [if_neg (Ne.symm same), Nat.mul_zero, Nat.add_zero] at counted
    rw [if_neg same, counted]

/-- Each reference gives way to all nodes of the replacement. -/
theorem nodeCount_replaceParam (slot : UInt8) (replacement expr : Expr) :
    (expr.replaceParam slot replacement).nodeCount =
      expr.nodeCount + expr.references slot * (replacement.nodeCount - 1) := by
  have counted := countP_replaceParam slot replacement expr fun _ => true
  have several := Nat.le_mul_of_pos_right (expr.references slot) replacement.nodeCount_pos
  rw [List.countP_true] at counted
  simp only [length_postorder, if_true, Nat.mul_one] at counted
  rw [Nat.mul_sub_one]
  omega

/-! ## One replacement after another -/

theorem replaceParam_of_references_eq_zero {slot : UInt8} {expr : Expr}
    (free : expr.references slot = 0) (replacement : Expr) :
    expr.replaceParam slot replacement = expr := by
  induction expr using induct_children with
  | step expr inductionHypothesis =>
      rcases references_eq_zero_iff.mp free with ⟨below, root⟩
      rcases node_children_replaceParam replacement root with ⟨node, children⟩
      exact eq_of_children_fixed node children fun child member =>
        inductionHypothesis child member (below child member)

theorem replaceParam_param (slot : UInt8) (expr : Expr) :
    expr.replaceParam slot (.param slot) = expr := by
  induction expr using induct_children with
  | step expr inductionHypothesis =>
      by_cases found : expr.node = .param slot
      · rw [eq_param_of_node found, replaceParam_self]
      · rcases node_children_replaceParam (.param slot) found with ⟨node, children⟩
        exact eq_of_children_fixed node children inductionHypothesis

/-- Two replacements in the other order, the second made in the first as well. -/
theorem replaceParam_replaceParam {slot other : UInt8} {inner : Expr} (different : slot ≠ other)
    (free : inner.references slot = 0) (replacement expr : Expr) :
    (expr.replaceParam slot replacement).replaceParam other inner =
      (expr.replaceParam other inner).replaceParam slot
        (replacement.replaceParam other inner) := by
  induction expr using induct_children with
  | step expr inductionHypothesis =>
      by_cases first : expr.node = .param slot
      · have kept : (param slot).replaceParam other inner = param slot := by
          apply replaceParam_of_references_eq_zero
          exact if_neg different
        rw [eq_param_of_node first, replaceParam_self, kept, replaceParam_self]
      · rcases node_children_replaceParam replacement first with ⟨node, children⟩
        by_cases second : expr.node = .param other
        · have kept : (param other).replaceParam slot replacement = param other := by
            apply replaceParam_of_references_eq_zero
            exact if_neg (Ne.symm different)
          rw [eq_param_of_node second, kept, replaceParam_self,
            replaceParam_of_references_eq_zero free]
        · rcases node_children_replaceParam inner second with ⟨node', children'⟩
          rcases node_children_replaceParam inner (node ▸ second) with ⟨nodes, below⟩
          rcases node_children_replaceParam (replacement.replaceParam other inner)
            (node' ▸ first) with ⟨nodes', below'⟩
          apply eq_of_node_children
          · rw [nodes, node, nodes', node']
          · rw [below, children, below', children', List.map_map, List.map_map]
            exact List.map_congr_left inductionHypothesis

/-- The laws of replacing a parameter.  Two replacements may change places, a
tree free of the parameter leaves no reference to it behind, a tree is left as it
is where nothing is to be replaced or everything by itself, and each reference
adds the nodes of the replacement but one. -/
theorem replaceParam_laws (slot : UInt8) (replacement expr : Expr) :
    (forall (other : UInt8) (inner : Expr), slot ≠ other -> inner.references slot = 0 ->
      (expr.replaceParam slot replacement).replaceParam other inner =
        (expr.replaceParam other inner).replaceParam slot
          (replacement.replaceParam other inner)) ∧
    (replacement.references slot = 0 ->
      (expr.replaceParam slot replacement).references slot = 0) ∧
    (expr.references slot = 0 ∨ replacement = .param slot ->
      expr.replaceParam slot replacement = expr) ∧
    (expr.replaceParam slot replacement).nodeCount =
      expr.nodeCount + expr.references slot * (replacement.nodeCount - 1) := by
  refine ⟨?_, ?_, ?_, nodeCount_replaceParam slot replacement expr⟩
  · intro other inner different free
    exact replaceParam_replaceParam different free replacement expr
  · intro free
    rw [references_replaceParam, if_pos rfl, free, Nat.mul_zero]
  · rintro (free | rfl)
    · exact replaceParam_of_references_eq_zero free replacement
    · exact replaceParam_param slot expr

/-- A parameter that a function is identified by, and that its arguments refer to
under an operator and in a command. -/
def sharedSlot : Expr :=
  .function (.param 0) [.binary .add (.param 0) (.param 1), .command 6 12 [.param 0]]

/-- All three references are replaced, also by a tree that brings the second
parameter into the place of the first. -/
theorem replaceParam_laws_sharedSlot :
    (0 : UInt8) ≠ 1 ∧ (ofInt 5).references 0 = 0 ∧ (unary .neg (.param 1)).references 0 = 0 ∧
      (sharedSlot.replaceParam 0 (.unary .neg (.param 1))).replaceParam 1 (ofInt 5) =
        (sharedSlot.replaceParam 1 (ofInt 5)).replaceParam 0
          ((unary .neg (.param 1)).replaceParam 1 (ofInt 5)) ∧
      (sharedSlot.replaceParam 0 (.unary .neg (.param 1))).references 0 = 0 ∧
      sharedSlot.replaceParam 2 (ofInt 5) = sharedSlot ∧
      sharedSlot.replaceParam 0 (.param 0) = sharedSlot ∧
      (sharedSlot.replaceParam 0 (.unary .neg (.param 1))).nodeCount =
        sharedSlot.nodeCount + 3 * (2 - 1) := by
  have different : (0 : UInt8) ≠ 1 := by decide
  have free : (ofInt 5).references 0 = 0 := rfl
  have replacementFree : (unary .neg (.param 1)).references 0 = 0 := rfl
  rcases replaceParam_laws 0 (.unary .neg (.param 1)) sharedSlot with
    ⟨exchanged, cleared, _, counted⟩
  rcases replaceParam_laws 2 (ofInt 5) sharedSlot with ⟨_, _, absent, _⟩
  rcases replaceParam_laws 0 (.param 0) sharedSlot with ⟨_, _, itself, _⟩
  exact ⟨different, free, replacementFree, exchanged 1 (ofInt 5) different free,
    cleared replacementFree, absent (Or.inl rfl), itself (Or.inr rfl), counted⟩

end Expr
end Rpn
