import Rpn.Proofs.Postorder

/-!
# Occurrences in a tree

The same tree may occur in several places of another, so a node is known by the
way to it: the numbers of the children passed from the root on.

Listing the occurrences in a tree, every node before its children and the
children in order, is listing the ways in their lexicographic order
(`occurrences_sorted`).  All occurrences are found there and nothing else
(`mem_occurrences_iff`), one for each node (`length_occurrences`), and a tree is
known by the nodes on all ways through it (`eq_of_nodes_at`).
-/

namespace Rpn

/-- A way from the root of a tree, and the tree at its end. -/
structure Occurrence where
  path : List Nat
  tree : Expr

/-- An occurrence in the child of this number, seen from the parent. -/
def Occurrence.below (index : Nat) (occurrence : Occurrence) : Occurrence :=
  ⟨index :: occurrence.path, occurrence.tree⟩

namespace Expr

/-- The tree at the end of a way from the root. -/
def at? (expr : Expr) : List Nat -> Option Expr
  | [] => some expr
  | index :: path => expr.children[index]?.bind fun child => child.at? path

theorem at?_cons {expr child : Expr} {index : Nat}
    (found : expr.children[index]? = some child) (path : List Nat) :
    expr.at? (index :: path) = child.at? path := by
  rw [at?, found, Option.bind_some]

mutual

/-- The occurrences in a tree in pre-order: the root, then those in the children
from the first to the last. -/
def occurrences : Expr -> List Occurrence
  | const constant => [⟨[], const constant⟩]
  | param slot => [⟨[], param slot⟩]
  | unary op operand => ⟨[], unary op operand⟩ :: operand.occurrences.map (Occurrence.below 0)
  | binary op left right =>
    ⟨[], binary op left right⟩ ::
      (left.occurrences.map (Occurrence.below 0) ++ right.occurrences.map (Occurrence.below 1))
  | function id args =>
    ⟨[], function id args⟩ :: (id.occurrences.map (Occurrence.below 0) ++ occurrencesInAll 1 args)
  | command bank id args => ⟨[], command bank id args⟩ :: occurrencesInAll 0 args

/-- The occurrences in the trees of a list, numbered from `index` on. -/
def occurrencesInAll (index : Nat) : List Expr -> List Occurrence
  | [] => []
  | expr :: rest =>
    expr.occurrences.map (Occurrence.below index) ++ occurrencesInAll (index + 1) rest

end

theorem occurrencesInAll_eq (index : Nat) (forest : List Expr) :
    occurrencesInAll index forest = (forest.zipIdx index).flatMap fun entry =>
      entry.1.occurrences.map (Occurrence.below entry.2) := by
  induction forest generalizing index with
  | nil => rfl
  | cons expr rest inductionHypothesis =>
      rw [occurrencesInAll, inductionHypothesis, List.zipIdx_cons, List.flatMap_cons]

/-- The root and the occurrences in each child. -/
theorem occurrences_eq (expr : Expr) :
    expr.occurrences = ⟨[], expr⟩ :: expr.children.zipIdx.flatMap fun entry =>
      entry.1.occurrences.map (Occurrence.below entry.2) := by
  rw [← occurrencesInAll_eq]
  cases expr <;> simp only [occurrences, children, occurrencesInAll, List.append_nil]

theorem mem_occurrences_iff {expr : Expr} {occurrence : Occurrence} :
    occurrence ∈ expr.occurrences ↔ expr.at? occurrence.path = some occurrence.tree := by
  induction expr using induct_children generalizing occurrence with
  | step expr inductionHypothesis =>
      rcases occurrence with ⟨path, tree⟩
      rw [occurrences_eq, List.mem_cons]
      simp only [List.mem_flatMap, List.mem_zipIdx_iff_getElem?, List.mem_map]
      cases path with
      | nil =>
          simp only [at?, Option.some.injEq, Occurrence.mk.injEq, true_and, Occurrence.below,
            reduceCtorEq, false_and, and_false, exists_false, or_false, eq_comm]
      | cons index path =>
          simp only [at?, Option.bind_eq_some_iff, Occurrence.mk.injEq, reduceCtorEq, false_and,
            false_or, Occurrence.below, List.cons.injEq]
          constructor
          · rintro ⟨⟨child, _⟩, found, inner, member, ⟨rfl, rfl⟩, rfl⟩
            exact ⟨child, found,
              (inductionHypothesis child (List.mem_of_getElem? found)).mp member⟩
          · rintro ⟨child, found, reached⟩
            exact ⟨(child, index), found, ⟨path, tree⟩,
              (inductionHypothesis child (List.mem_of_getElem? found)).mpr reached,
              ⟨rfl, rfl⟩, rfl⟩

private theorem length_occurrencesInAll_of_mem {forest : List Expr}
    (each : forall expr, expr ∈ forest -> expr.occurrences.length = expr.nodeCount)
    (index : Nat) : (occurrencesInAll index forest).length = nodeCountOfAll forest := by
  induction forest generalizing index with
  | nil => rfl
  | cons expr rest inductionHypothesis =>
      have parts := List.forall_mem_cons.mp each
      rw [occurrencesInAll, List.length_append, List.length_map, parts.1,
        inductionHypothesis parts.2, nodeCountOfAll]

theorem length_occurrences (expr : Expr) : expr.occurrences.length = expr.nodeCount := by
  induction expr using induct_children with
  | step expr inductionHypothesis =>
      rw [occurrences_eq, ← occurrencesInAll_eq, List.length_cons,
        length_occurrencesInAll_of_mem inductionHypothesis, nodeCount_eq]

/-- Pre-order is the lexicographic order of the ways, so none is listed twice. -/
theorem occurrences_sorted (expr : Expr) :
    expr.occurrences.Pairwise fun first second => first.path < second.path := by
  induction expr using induct_children with
  | step expr inductionHypothesis =>
      rw [occurrences_eq, List.pairwise_cons, List.pairwise_flatMap]
      refine ⟨?_, ?_, ?_⟩
      · intro occurrence member
        rcases List.mem_flatMap.mp member with ⟨entry, _, inside⟩
        rcases List.mem_map.mp inside with ⟨inner, _, rfl⟩
        exact List.nil_lt_cons _ _
      · rintro ⟨child, index⟩ entry
        have member := List.mem_of_getElem? (List.mem_zipIdx_iff_getElem?.mp entry)
        rw [List.pairwise_map]
        apply (inductionHypothesis child member).imp
        intro first second before
        exact List.cons_lt_cons_iff.mpr (Or.inr ⟨rfl, before⟩)
      · have numbered : (expr.children.zipIdx.map Prod.snd).Pairwise (· < ·) := by
          rw [List.zipIdx_map_snd]
          exact List.pairwise_lt_range' 1
        apply (List.pairwise_map.mp numbered).imp
        intro first second before occurrence member other otherMember
        rcases List.mem_map.mp member with ⟨inner, _, rfl⟩
        rcases List.mem_map.mp otherMember with ⟨otherInner, _, rfl⟩
        exact List.cons_lt_cons_iff.mpr (Or.inl before)

/-- A tree with the same nodes on all ways through another is the same tree. -/
theorem eq_of_nodes_at {expr other : Expr}
    (same : forall occurrence, occurrence ∈ expr.occurrences ->
      (other.at? occurrence.path).map node = some occurrence.tree.node) : other = expr := by
  induction expr using induct_children generalizing other with
  | step expr inductionHypothesis =>
      have root : other.node = expr.node :=
        Option.some.inj (same ⟨[], expr⟩ (mem_occurrences_iff.mpr rfl))
      have arity : other.children.length = expr.children.length := by
        rw [length_children, length_children, root]
      apply eq_of_node_children root
      apply List.ext_getElem arity
      intro index within inside
      apply inductionHypothesis _ (List.getElem_mem inside)
      intro occurrence member
      have below : occurrence.below index ∈ expr.occurrences := by
        apply mem_occurrences_iff.mpr
        rw [Occurrence.below, at?_cons (List.getElem?_eq_getElem inside)]
        exact mem_occurrences_iff.mp member
      have reached := same _ below
      rwa [Occurrence.below, at?_cons (List.getElem?_eq_getElem within)] at reached

end Expr
end Rpn
