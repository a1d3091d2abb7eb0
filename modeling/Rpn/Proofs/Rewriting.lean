import Rpn.Expr.Substitution
import Rpn.Proofs.Postorder

/-!
# Replacing by way of the children

Replacing does the same at every kind of node.  The rule is asked about the tree;
its answer takes the place of the tree, and without an answer the node stays over
its children after replacement (`replaceM_eq`).  Under a rule that remembers
nothing the two outcomes are two equations (`replace_of_some`,
`node_children_replace_of_none`).
-/

namespace Rpn
namespace Expr

/-- The tree with other children in the place of its own. -/
def withChildren : Expr -> List Expr -> Expr
  | unary op _, [operand] => unary op operand
  | binary op _ _, [left, right] => binary op left right
  | function _ _, id :: args => function id args
  | command bank id _, args => command bank id args
  | expr, _ => expr

theorem node_children_withChildren {expr : Expr} {children : List Expr}
    (count : children.length = expr.children.length) :
    (expr.withChildren children).node = expr.node ∧
      (expr.withChildren children).children = children := by
  cases expr with
  | const constant => exact ⟨rfl, (List.eq_nil_of_length_eq_zero count).symm⟩
  | param slot => exact ⟨rfl, (List.eq_nil_of_length_eq_zero count).symm⟩
  | unary op operand =>
      rcases List.length_eq_one_iff.mp count with ⟨changed, rfl⟩
      exact ⟨rfl, rfl⟩
  | binary op left right =>
      rcases List.length_eq_two.mp count with ⟨changedLeft, changedRight, rfl⟩
      exact ⟨rfl, rfl⟩
  | function id args =>
      cases children with
      | nil => cases count
      | cons changed others => exact ⟨congrArg Node.function (Nat.succ.inj count), rfl⟩
  | command bank id args => exact ⟨congrArg (Node.command bank id) count, rfl⟩

theorem replaceM_eq {m : Type -> Type} [Monad m] [LawfulMonad m]
    (rule : Expr -> m (Option Expr)) (expr : Expr) :
    expr.replaceM rule = (do
      let answer ← rule expr
      answer.elim (do
        let children ← replaceAllM rule expr.children
        pure (expr.withChildren children)) pure) := by
  have last : replaceAllM rule [] = pure [] := rfl
  have first : forall expr rest, replaceAllM rule (expr :: rest) = (do
      let expr ← expr.replaceM rule
      let rest ← replaceAllM rule rest
      pure (expr :: rest)) := fun _ _ => rfl
  cases expr <;>
    (rw [replaceM]
     apply bind_congr
     intro answer
     cases answer with
     | some replacement => rfl
     | none =>
         simp only [Option.elim, children, first, last, bind_assoc, pure_bind, withChildren])

/-! ## Rules that remember nothing -/

theorem run_replaceAllM (rule : Expr -> Option Expr) (forest : List Expr) :
    Id.run (replaceAllM (fun offered => pure (rule offered)) forest) =
      forest.map (replace rule) := by
  induction forest with
  | nil => rfl
  | cons expr rest inductionHypothesis =>
      rw [List.map_cons, ← inductionHypothesis]
      rfl

theorem replace_of_some {rule : Expr -> Option Expr} {expr replacement : Expr}
    (found : rule expr = some replacement) : expr.replace rule = replacement := by
  rw [replace, replaceM_eq, found]
  rfl

/-- A node for which the rule has no answer stays, over its children after
replacement. -/
theorem node_children_replace_of_none {rule : Expr -> Option Expr} {expr : Expr}
    (kept : rule expr = none) :
    (expr.replace rule).node = expr.node ∧
      (expr.replace rule).children = expr.children.map (replace rule) := by
  have shape : expr.replace rule = expr.withChildren (expr.children.map (replace rule)) := by
    rw [← run_replaceAllM, replace, replaceM_eq, kept]
    rfl
  rw [shape]
  exact node_children_withChildren (List.length_map _)

end Expr
end Rpn
