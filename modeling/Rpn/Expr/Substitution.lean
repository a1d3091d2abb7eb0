import Rpn.Expr

/-!
# Replacing parts of a tree

Every node of a tree is offered to a rule, from the root down and from the
first child to the last.  Where the rule answers with a tree, that tree takes
the place of the node and nothing in it is offered again; elsewhere the node
stays and its children are offered in turn.  The rule runs in a monad, so it
may depend on everything it was offered before.

Two rules have names: putting a tree in the place of a parameter, and
exchanging the operands of every operation whose operator has a converse.
-/

namespace Rpn
namespace Expr

mutual

/-- Replace the nodes of a tree by a rule, top-down. -/
def replaceM {m : Type -> Type} [Monad m] (rule : Expr -> m (Option Expr)) : Expr -> m Expr
  | const constant => do
    match ← rule (const constant) with
    | some replacement => pure replacement
    | none => pure (const constant)
  | param slot => do
    match ← rule (param slot) with
    | some replacement => pure replacement
    | none => pure (param slot)
  | unary op operand => do
    match ← rule (unary op operand) with
    | some replacement => pure replacement
    | none =>
      let operand ← replaceM rule operand
      pure (unary op operand)
  | binary op left right => do
    match ← rule (binary op left right) with
    | some replacement => pure replacement
    | none =>
      let left ← replaceM rule left
      let right ← replaceM rule right
      pure (binary op left right)
  | function id args => do
    match ← rule (function id args) with
    | some replacement => pure replacement
    | none =>
      let id ← replaceM rule id
      let args ← replaceAllM rule args
      pure (function id args)
  | command bank id args => do
    match ← rule (command bank id args) with
    | some replacement => pure replacement
    | none =>
      let args ← replaceAllM rule args
      pure (command bank id args)

/-- Replace in the trees of a list, first to last. -/
def replaceAllM {m : Type -> Type} [Monad m] (rule : Expr -> m (Option Expr)) :
    List Expr -> m (List Expr)
  | [] => pure []
  | expr :: rest => do
    let expr ← replaceM rule expr
    let rest ← replaceAllM rule rest
    pure (expr :: rest)

end

/-- Replace by a rule that does not depend on what it was offered before. -/
def replace (rule : Expr -> Option Expr) (expr : Expr) : Expr :=
  Id.run (expr.replaceM fun offered => pure (rule offered))

/-- Put a tree in the place of every reference to a parameter. -/
def replaceParam (expr : Expr) (slot : UInt8) (replacement : Expr) : Expr :=
  expr.replace fun
    | param found => if found = slot then some replacement else none
    | _ => none

/-- The operation with its operands exchanged, if its operator has a converse. -/
def converse? : Expr -> Option Expr
  | binary op left right => op.converse?.map fun converse => binary converse right left
  | _ => none

/-- Exchange the operands of every operation that allows it and is not inside
one that does. -/
def converseAll (expr : Expr) : Expr :=
  expr.replace converse?

end Expr
end Rpn
