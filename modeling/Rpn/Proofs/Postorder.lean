import Mathlib.Algebra.Ring.Nat
import Mathlib.Data.List.Basic
import Rpn.Assembler

/-!
# Trees by their nodes

Every recursion over a tree does the same at each kind of node: something for
the children in order, then something for the node itself.  The module states
the recursions of the library in that form, so that a proof about them is one
step for a node over a list of children instead of one case a constructor.

The code of a tree is what the assembler writes for it if nothing is refused:
the encodings of its nodes in post-order.  It is defined without the assembler,
and a node that has no encoding adds nothing to it.
-/

namespace Rpn
namespace Expr

/-- Induction over trees by their children, the same for every kind of node. -/
theorem induct_children {motive : Expr -> Prop}
    (step : forall expr, (forall child, child ∈ expr.children -> motive child) -> motive expr)
    (expr : Expr) : motive expr := by
  induction expr with
  | const constant => exact step _ (fun _ member => nomatch member)
  | param slot => exact step _ (fun _ member => nomatch member)
  | unary op operand operandHypothesis =>
      apply step
      intro child member
      cases List.mem_singleton.mp member
      exact operandHypothesis
  | binary op left right leftHypothesis rightHypothesis =>
      apply step
      intro child member
      rcases List.mem_pair.mp member with same | same
      · exact same ▸ leftHypothesis
      · exact same ▸ rightHypothesis
  | function id args idHypothesis argsHypothesis =>
      apply step
      intro child member
      rcases List.mem_cons.mp member with same | listed
      · exact same ▸ idHypothesis
      · exact argsHypothesis child listed
  | command bank id args argsHypothesis => exact step _ argsHypothesis

theorem length_children (expr : Expr) : expr.children.length = expr.node.arity := by
  cases expr <;> rfl

/-- A tree is known by its root and its children. -/
theorem eq_of_node_children {first second : Expr} (node : first.node = second.node)
    (children : first.children = second.children) : first = second := by
  have built := Node.build?_children first
  rw [node, children, Node.build?_children] at built
  exact (Option.some.inj built).symm

/-- A tree over children that a change leaves as they are. -/
theorem eq_of_children_fixed {first second : Expr} {change : Expr -> Expr}
    (node : first.node = second.node) (children : first.children = second.children.map change)
    (fixed : forall child, child ∈ second.children -> change child = child) :
    first = second := by
  apply eq_of_node_children node
  rw [children, List.map_congr_left fixed, List.map_id']

theorem depth_pos (expr : Expr) : 0 < expr.depth := by
  rw [depth_eq]
  exact Nat.succ_pos _

theorem nodeCount_pos (expr : Expr) : 0 < expr.nodeCount := by
  rw [nodeCount_eq]
  exact Nat.succ_pos _

/-- The deepest tree of a list bounds every tree in it, and nothing less does. -/
theorem depthOfAll_le_iff {forest : List Expr} {bound : Nat} :
    depthOfAll forest ≤ bound ↔ forall expr, expr ∈ forest -> expr.depth ≤ bound := by
  induction forest with
  | nil => simp only [depthOfAll, Nat.zero_le, List.not_mem_nil, false_implies, implies_true]
  | cons expr rest inductionHypothesis =>
      rw [depthOfAll, Nat.max_le, inductionHypothesis, List.forall_mem_cons]

theorem nodeCountOfAll_eq_sum (forest : List Expr) :
    nodeCountOfAll forest = (forest.map nodeCount).sum := by
  induction forest with
  | nil => rfl
  | cons expr rest inductionHypothesis =>
      rw [nodeCountOfAll, inductionHypothesis, List.map_cons, List.sum_cons]

theorem nodeCountOfAll_append (first second : List Expr) :
    nodeCountOfAll (first ++ second) = nodeCountOfAll first + nodeCountOfAll second := by
  induction first with
  | nil => simp only [List.nil_append, nodeCountOfAll, Nat.zero_add]
  | cons expr rest inductionHypothesis =>
      simp only [List.cons_append, nodeCountOfAll, inductionHypothesis, Nat.add_assoc]

private theorem depthOfAll_le_nodeCountOfAll_of_mem {forest : List Expr}
    (each : forall expr, expr ∈ forest -> expr.depth ≤ expr.nodeCount) :
    depthOfAll forest ≤ nodeCountOfAll forest := by
  induction forest with
  | nil => exact Nat.le_refl 0
  | cons expr rest inductionHypothesis =>
      have parts := List.forall_mem_cons.mp each
      have others := inductionHypothesis parts.2
      simp only [depthOfAll, nodeCountOfAll]
      omega

/-- Every level of a tree has a node of its own. -/
theorem depth_le_nodeCount (expr : Expr) : expr.depth ≤ expr.nodeCount := by
  induction expr using induct_children with
  | step expr inductionHypothesis =>
      rw [depth_eq, nodeCount_eq]
      exact Nat.succ_le_succ (depthOfAll_le_nodeCountOfAll_of_mem inductionHypothesis)

/-! ## Post-order -/

private theorem postorderOfAllThen_of_mem {forest : List Expr}
    (each : forall expr, expr ∈ forest -> forall rest, expr.postorderThen rest = expr.postorder ++ rest)
    (rest : List Node) :
    postorderOfAllThen forest rest = forest.flatMap postorder ++ rest := by
  induction forest with
  | nil => rfl
  | cons expr others inductionHypothesis =>
      have parts := List.forall_mem_cons.mp each
      rw [postorderOfAllThen, parts.1, inductionHypothesis parts.2, List.flatMap_cons,
        List.append_assoc]

/-- What comes after the nodes of a tree is left as it is. -/
theorem postorderThen_eq (expr : Expr) (rest : List Node) :
    expr.postorderThen rest = expr.postorder ++ rest := by
  induction expr generalizing rest with
  | const constant => rfl
  | param slot => rfl
  | unary op operand operandHypothesis =>
      simp only [postorder, postorderThen]
      rw [operandHypothesis, operandHypothesis [_], List.append_assoc, List.singleton_append]
  | binary op left right leftHypothesis rightHypothesis =>
      simp only [postorder, postorderThen]
      rw [leftHypothesis, rightHypothesis, leftHypothesis (postorderThen right _),
        rightHypothesis [_], List.append_assoc, List.append_assoc, List.singleton_append]
  | function id args idHypothesis argsHypothesis =>
      simp only [postorder, postorderThen]
      rw [idHypothesis, postorderOfAllThen_of_mem argsHypothesis,
        idHypothesis (postorderOfAllThen args _), postorderOfAllThen_of_mem argsHypothesis,
        List.append_assoc, List.append_assoc, List.singleton_append]
  | command bank id args argsHypothesis =>
      simp only [postorder, postorderThen]
      rw [postorderOfAllThen_of_mem argsHypothesis, postorderOfAllThen_of_mem argsHypothesis,
        List.append_assoc, List.singleton_append]

theorem postorder_eq (expr : Expr) :
    expr.postorder = expr.children.flatMap postorder ++ [expr.node] := by
  have forests : forall forest rest,
      postorderOfAllThen forest rest = forest.flatMap postorder ++ rest :=
    fun forest rest => postorderOfAllThen_of_mem (fun expr _ => expr.postorderThen_eq) rest
  cases expr with
  | const constant => rfl
  | param slot => rfl
  | unary op operand =>
      rw [postorder, postorderThen, postorderThen_eq]
      simp only [children, node, List.flatMap_cons, List.flatMap_nil, List.append_nil]
  | binary op left right =>
      rw [postorder, postorderThen, postorderThen_eq, postorderThen_eq]
      simp only [children, node, List.flatMap_cons, List.flatMap_nil, List.append_nil,
        List.append_assoc]
  | function id args =>
      rw [postorder, postorderThen, postorderThen_eq, forests]
      simp only [children, node, List.flatMap_cons, List.append_assoc]
  | command bank id args =>
      rw [postorder, postorderThen, forests]
      rfl

private theorem length_flatMap_postorder_of_mem {forest : List Expr}
    (each : forall expr, expr ∈ forest -> expr.postorder.length = expr.nodeCount) :
    (forest.flatMap postorder).length = nodeCountOfAll forest := by
  induction forest with
  | nil => rfl
  | cons expr rest inductionHypothesis =>
      have parts := List.forall_mem_cons.mp each
      rw [List.flatMap_cons, List.length_append, parts.1, inductionHypothesis parts.2,
        nodeCountOfAll]

theorem length_postorder (expr : Expr) : expr.postorder.length = expr.nodeCount := by
  induction expr using induct_children with
  | step expr inductionHypothesis =>
      rw [postorder_eq, List.length_append, length_flatMap_postorder_of_mem inductionHypothesis,
        nodeCount_eq, List.length_singleton]

theorem forall_mem_postorder_iff {expr : Expr} {property : Node -> Prop} :
    (forall node, node ∈ expr.postorder -> property node) ↔
      (forall child, child ∈ expr.children -> forall node, node ∈ child.postorder -> property node) ∧
        property expr.node := by
  rw [postorder_eq]
  constructor
  · intro every
    refine ⟨?_, every _ (List.mem_append_right _ List.mem_cons_self)⟩
    intro child listed node member
    exact every node (List.mem_append_left _ (List.mem_flatMap.mpr ⟨child, listed, member⟩))
  · rintro ⟨below, root⟩ node member
    rcases List.mem_append.mp member with lower | last
    · rcases List.mem_flatMap.mp lower with ⟨child, listed, inside⟩
      exact below child listed node inside
    · exact List.mem_singleton.mp last ▸ root

end Expr

/-! ## Code -/

namespace Node

/-- Whether the instruction of the node is part of the wire format. -/
def Encodable (node : Node) : Prop :=
  Exists fun bytes => node.instruction.encode = .ok bytes

/-- The bytes of the instruction of the node, none if it has no encoding. -/
def code (node : Node) : List UInt8 :=
  match node.instruction.encode with
  | .ok bytes => bytes
  | .error _ => []

theorem code_of_encode {node : Node} {bytes : List UInt8}
    (encoded : node.instruction.encode = .ok bytes) : node.code = bytes := by
  simp only [code, encoded]

theorem encode_of_encodable {node : Node} (encodable : node.Encodable) :
    node.instruction.encode = .ok node.code := by
  rcases encodable with ⟨bytes, encoded⟩
  rw [code_of_encode encoded, encoded]

end Node

namespace Expr

/-- The encodings of the nodes in post-order. -/
def code (expr : Expr) : List UInt8 :=
  expr.postorder.flatMap Node.code

theorem code_eq (expr : Expr) : expr.code = expr.children.flatMap code ++ expr.node.code := by
  rw [code, postorder_eq, List.flatMap_append, List.flatMap_assoc, List.flatMap_singleton]
  rfl

end Expr
end Rpn
