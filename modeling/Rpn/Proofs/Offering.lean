import Rpn.Proofs.Occurrences
import Rpn.Proofs.Rewriting

/-!
# What a rule is offered

Replacing offers the nodes of a tree to a rule, and the rule may answer by what
it has been offered before.  So the order of the offers can be seen, and so can
an offer that is made twice.

A visit is an occurrence in the tree together with the answer of the rule there.
The visits of a replacement are the occurrences in pre-order without those below
one that was answered with a tree (`Tour`).  The result has that tree there, and
on every other way that was visited it has the node that was there before.  The
trees of the visits, with the answers, are what the rule was called with and
nothing else: a rule that keeps a record of its calls ends with exactly these.

Main statement: `replaceM_visits`.  The visits of a node are put together from
those of its children (`Tour.of_children`) as its computation is put together
from theirs (`Runs.bind`).
-/

namespace Rpn

/-- What a rule was offered, and what it answered. -/
abbrev Call := Expr × Option Expr

/-- An occurrence that was offered to a rule, and the answer. -/
structure Visit where
  occurrence : Occurrence
  answer : Option Expr

namespace Visit

/-- What the rule had to do with the visit.  It does not see the way to the
tree. -/
def call (visit : Visit) : Call :=
  (visit.occurrence.tree, visit.answer)

/-- A visit in the child of this number, seen from the parent. -/
def below (index : Nat) (visit : Visit) : Visit :=
  ⟨visit.occurrence.below index, visit.answer⟩

/-- A visit to the root that was not answered with a tree, and visits to the
children of each number. -/
def descend (expr : Expr) (visits : Nat -> List Visit) : List Visit :=
  ⟨⟨[], expr⟩, none⟩ ::
    expr.children.zipIdx.flatMap fun entry => (visits entry.2).map (below entry.2)

theorem mem_descend_iff {expr : Expr} {visits : Nat -> List Visit} {visit : Visit} :
    visit ∈ descend expr visits ↔
      visit = ⟨⟨[], expr⟩, none⟩ ∨
        Exists fun index => index < expr.children.length ∧
          Exists fun inner => inner ∈ visits index ∧ inner.below index = visit := by
  rw [descend, List.mem_cons, List.mem_flatMap]
  apply or_congr_right
  constructor
  · rintro ⟨⟨child, index⟩, entry, inside⟩
    have found := List.mem_zipIdx_iff_getElem?.mp entry
    exact ⟨index, (List.getElem?_eq_some_iff.mp found).1, List.mem_map.mp inside⟩
  · rintro ⟨index, within, inside⟩
    exact ⟨(expr.children[index], index),
      List.mem_zipIdx_iff_getElem?.mpr (List.getElem?_eq_getElem within),
      List.mem_map.mpr inside⟩

theorem map_call_descend (expr : Expr) (visits : Nat -> List Visit) :
    (descend expr visits).map call =
      (expr, none) :: expr.children.zipIdx.flatMap fun entry => (visits entry.2).map call := by
  rw [descend, List.map_cons, List.map_flatMap]
  simp only [List.map_map]
  rfl

end Visit

namespace Expr

/-! ## Tours of a tree -/

/-- Whether an occurrence is below one that was answered with a tree. -/
def Replaced (visits : List Visit) (occurrence : Occurrence) : Prop :=
  Exists fun visit => visit ∈ visits ∧ visit.answer.isSome ∧
    visit.occurrence.path <+: occurrence.path ∧ visit.occurrence.path ≠ occurrence.path

instance instDecidableReplaced (visits : List Visit) : DecidablePred (Replaced visits) :=
  fun occurrence => inferInstanceAs (Decidable (Exists fun visit => visit ∈ visits ∧
    visit.answer.isSome ∧ visit.occurrence.path <+: occurrence.path ∧
      visit.occurrence.path ≠ occurrence.path))

/-- Whether visits lead through a tree and make another one of it. -/
structure Tour (visits : List Visit) (expr result : Expr) : Prop where
  /-- The occurrences are visited in pre-order, but for those below an answer. -/
  visited : visits.map Visit.occurrence =
    expr.occurrences.filter fun occurrence => ¬ Replaced visits occurrence
  /-- An answer stands where it was given. -/
  replaced : forall visit, visit ∈ visits -> forall replacement,
    visit.answer = some replacement -> result.at? visit.occurrence.path = some replacement
  /-- Where there was none, the node is the one that was there before, with as many
  children. -/
  kept : forall visit, visit ∈ visits -> visit.answer = none ->
    (result.at? visit.occurrence.path).map node = some visit.occurrence.tree.node

/-- A tree that is replaced as a whole is visited at its root alone. -/
theorem Tour.of_answer (expr replacement : Expr) :
    Tour [⟨⟨[], expr⟩, some replacement⟩] expr replacement where
  visited := by
    have root : ¬ Replaced [⟨⟨[], expr⟩, some replacement⟩] ⟨[], expr⟩ := by
      rintro ⟨visit, member, _, _, different⟩
      rw [List.mem_singleton.mp member] at different
      exact different rfl
    have below : forall occurrence, occurrence ∈ expr.children.zipIdx.flatMap (fun entry =>
        entry.1.occurrences.map (Occurrence.below entry.2)) ->
          ¬ decide (¬ Replaced [⟨⟨[], expr⟩, some replacement⟩] occurrence) = true := by
      intro occurrence member
      rcases List.mem_flatMap.mp member with ⟨entry, _, inside⟩
      rcases List.mem_map.mp inside with ⟨inner, _, rfl⟩
      rw [decide_eq_true_eq, not_not]
      exact ⟨_, List.mem_singleton_self _, rfl, List.nil_prefix, (List.cons_ne_nil _ _).symm⟩
    rw [occurrences_eq, List.filter_cons, if_pos (decide_eq_true root),
      List.filter_eq_nil_iff.mpr below]
    rfl
  replaced := by
    intro visit member answer answered
    rw [List.mem_singleton.mp member] at answered ⊢
    exact answered
  kept := by
    intro visit member unanswered
    rw [List.mem_singleton.mp member] at unanswered
    cases unanswered

/-- What is replaced in a child is what the visits there have replaced. -/
theorem replaced_descend_iff {expr : Expr} {visits : Nat -> List Visit} {index : Nat}
    (within : index < expr.children.length) (occurrence : Occurrence) :
    Replaced (Visit.descend expr visits) (occurrence.below index) ↔
      Replaced (visits index) occurrence := by
  constructor
  · rintro ⟨visit, member, answered, above, different⟩
    rcases Visit.mem_descend_iff.mp member with rfl | ⟨other, _, inner, inside, rfl⟩
    · cases answered
    · rcases List.cons_prefix_cons.mp above with ⟨rfl, innerAbove⟩
      exact ⟨inner, inside, answered, innerAbove,
        fun same => different (congrArg (List.cons _) same)⟩
  · rintro ⟨inner, inside, answered, above, different⟩
    have member : inner.below index ∈ Visit.descend expr visits :=
      Visit.mem_descend_iff.mpr (Or.inr ⟨index, within, inner, inside, rfl⟩)
    refine ⟨inner.below index, member, answered, List.cons_prefix_cons.mpr ⟨rfl, above⟩, ?_⟩
    intro same
    exact different (List.cons.inj same).2

/-- The root stays, and a tour leads through each child. -/
theorem Tour.of_children {expr : Expr} {visits : Nat -> List Visit} {results : List Expr}
    (count : results.length = expr.children.length)
    (each : forall index child, expr.children[index]? = some child ->
      Exists fun result => results[index]? = some result ∧ Tour (visits index) child result) :
    Tour (Visit.descend expr visits) expr (expr.withChildren results) where
  visited := by
    have root : ¬ Replaced (Visit.descend expr visits) ⟨[], expr⟩ := by
      rintro ⟨visit, _, _, above, different⟩
      exact different (List.prefix_nil.mp above)
    rw [occurrences_eq, List.filter_cons, if_pos (decide_eq_true root), List.filter_flatMap,
      Visit.descend, List.map_cons, List.map_flatMap]
    congr 1
    apply List.flatMap_congr
    rintro ⟨child, index⟩ entry
    have found := List.mem_zipIdx_iff_getElem?.mp entry
    have within := (List.getElem?_eq_some_iff.mp found).1
    rcases each index child found with ⟨result, _, tour⟩
    have apart : (fun occurrence => decide ¬ Replaced (Visit.descend expr visits) occurrence) ∘
        Occurrence.below index = fun occurrence => decide ¬ Replaced (visits index) occurrence := by
      funext occurrence
      exact decide_eq_decide.mpr (replaced_descend_iff within occurrence).not
    rw [List.filter_map, ← Visit.descend, apart, ← tour.visited, List.map_map, List.map_map]
    rfl
  replaced := by
    intro visit member replacement answered
    rcases Visit.mem_descend_iff.mp member with rfl | ⟨index, within, inner, inside, rfl⟩
    · cases answered
    · rcases each index _ (List.getElem?_eq_getElem within) with ⟨result, found, tour⟩
      rw [← (node_children_withChildren count).2] at found
      exact (at?_cons found _).trans (tour.replaced inner inside replacement answered)
  kept := by
    intro visit member unanswered
    rcases Visit.mem_descend_iff.mp member with rfl | ⟨index, within, inner, inside, rfl⟩
    · exact congrArg some (node_children_withChildren count).1
    · rcases each index _ (List.getElem?_eq_getElem within) with ⟨result, found, tour⟩
      rw [← (node_children_withChildren count).2] at found
      exact (congrArg (Option.map node) (at?_cons found _)).trans
        (tour.kept inner inside unanswered)

/-- Visits that were never answered with a tree lead everywhere and change
nothing. -/
theorem Tour.of_unanswered {visits : List Visit} {expr result : Expr}
    (tour : Tour visits expr result)
    (unanswered : forall visit, visit ∈ visits -> visit.answer = none) :
    result = expr ∧ visits.length = expr.nodeCount := by
  have everywhere : visits.map Visit.occurrence = expr.occurrences := by
    rw [tour.visited, List.filter_eq_self]
    intro occurrence _
    apply decide_eq_true
    rintro ⟨visit, member, answered, _⟩
    rw [unanswered visit member] at answered
    cases answered
  constructor
  · apply eq_of_nodes_at
    intro occurrence member
    rw [← everywhere] at member
    rcases List.mem_map.mp member with ⟨visit, listed, rfl⟩
    exact tour.kept visit listed (unanswered visit listed)
  · rw [← length_occurrences, ← everywhere, List.length_map]

/-! ## Runs of a rule -/

variable {σ : Type}

/-- A rule that keeps a record of what it was offered and how it answered. -/
def recorded (rule : Expr -> StateM σ (Option Expr)) (offered : Expr) :
    StateM (σ × List Call) (Option Expr) :=
  fun before =>
    let answered := (rule offered).run before.1
    (answered.1, (answered.2, before.2 ++ [(offered, answered.1)]))

/-- Whether a computation that calls a rule and the same computation with the
recorded rule come to the same value and state, by way of these calls. -/
structure Runs {Value : Type} (rule : Expr -> StateM σ (Option Expr)) (plain : StateM σ Value)
    (record : StateM (σ × List Call) Value) (before : σ)
    (calls : List Call) (value : Value) (after : σ) : Prop where
  plain_run : plain.run before = (value, after)
  record_run : forall earlier, record.run (before, earlier) = (value, (after, earlier ++ calls))
  answered : forall call, call ∈ calls ->
    Exists fun state => ((rule call.1).run state).1 = call.2

variable {rule : Expr -> StateM σ (Option Expr)}

theorem Runs.pure {Value : Type} (value : Value) (state : σ) :
    Runs rule (Pure.pure value) (Pure.pure value) state [] value state where
  plain_run := rfl
  record_run := fun earlier => by rw [List.append_nil]; rfl
  answered := fun _ member => nomatch member

theorem Runs.offer (rule : Expr -> StateM σ (Option Expr)) (offered : Expr) (state : σ) :
    Runs rule (rule offered) (recorded rule offered) state
      [(offered, ((rule offered).run state).1)] ((rule offered).run state).1
        ((rule offered).run state).2 where
  plain_run := rfl
  record_run := fun _ => rfl
  answered := by
    intro call member
    rw [List.mem_singleton.mp member]
    exact ⟨state, rfl⟩

/-- One computation after another makes the calls of both. -/
theorem Runs.bind {First Second : Type} {plain : StateM σ First}
    {record : StateM (σ × List Call) First} {plainNext : First -> StateM σ Second}
    {recordNext : First -> StateM (σ × List Call) Second}
    {before middle after : σ} {calls others : List Call} {first : First}
    {second : Second} (ran : Runs rule plain record before calls first middle)
    (next : Runs rule (plainNext first) (recordNext first) middle others second after) :
    Runs rule (plain >>= plainNext) (record >>= recordNext) before (calls ++ others) second after
    where
  plain_run := by
    rw [StateT.run_bind, ran.plain_run]
    exact next.plain_run
  record_run := by
    intro earlier
    rw [StateT.run_bind, ran.record_run, ← List.append_assoc]
    exact next.record_run (earlier ++ calls)
  answered := by
    intro call member
    rcases List.mem_append.mp member with member | member
    · exact ran.answered call member
    · exact next.answered call member

theorem Runs.bind_pure {First Second : Type} {plain : StateM σ First}
    {record : StateM (σ × List Call) First} {before after : σ}
    {calls : List Call} {first : First}
    (ran : Runs rule plain record before calls first after) (change : First -> Second) :
    Runs rule (plain >>= fun value => Pure.pure (change value))
      (record >>= fun value => Pure.pure (change value)) before calls (change first) after :=
  List.append_nil calls ▸ ran.bind (Runs.pure (change first) after)

private theorem exists_tours_of_mem {forest : List Expr}
    (each : forall expr, expr ∈ forest -> forall before, Exists fun visits =>
      Exists fun result => Exists fun after =>
        Runs rule (expr.replaceM rule) (expr.replaceM (recorded rule)) before
          (visits.map Visit.call) result after ∧ Tour visits expr result) (before : σ) :
    Exists fun visits : Nat -> List Visit => Exists fun results => Exists fun after =>
      Runs rule (replaceAllM rule forest) (replaceAllM (recorded rule) forest) before
        (forest.zipIdx.flatMap fun entry => (visits entry.2).map Visit.call) results after ∧
      results.length = forest.length ∧
      forall index child, forest[index]? = some child ->
        Exists fun result => results[index]? = some result ∧
          Tour (visits index) child result := by
  induction forest generalizing before with
  | nil =>
      refine ⟨fun _ => [], [], before, Runs.pure [] before, rfl, ?_⟩
      intro index child impossible
      cases impossible
  | cons expr rest inductionHypothesis =>
      have parts := List.forall_mem_cons.mp each
      rcases parts.1 before with ⟨visits, result, middle, ran, tour⟩
      rcases inductionHypothesis parts.2 middle with
        ⟨others, results, after, ranOthers, count, tours⟩
      refine ⟨fun index => index.casesOn visits others, result :: results, after, ?_,
        congrArg Nat.succ count, ?_⟩
      · rw [List.zipIdx_cons', List.flatMap_cons, List.flatMap_map]
        exact ran.bind (ranOthers.bind_pure (List.cons result))
      · intro index child found
        cases index with
        | zero =>
            cases Option.some.inj found
            exact ⟨result, rfl, tour⟩
        | succ index => exact tours index child found

/-- Every run of a replacement is a tour of the tree. -/
theorem exists_tour (rule : Expr -> StateM σ (Option Expr)) (before : σ) (expr : Expr) :
    Exists fun visits => Exists fun result => Exists fun after =>
      Runs rule (expr.replaceM rule) (expr.replaceM (recorded rule)) before
        (visits.map Visit.call) result after ∧ Tour visits expr result := by
  induction expr using induct_children generalizing before with
  | step expr inductionHypothesis =>
      have offered := Runs.offer rule expr before
      rw [replaceM_eq, replaceM_eq]
      cases answered : ((rule expr).run before).1 with
      | some replacement =>
          rw [answered] at offered
          exact ⟨_, replacement, _, offered.bind (Runs.pure replacement _),
            Tour.of_answer expr replacement⟩
      | none =>
          rw [answered] at offered
          rcases exists_tours_of_mem inductionHypothesis ((rule expr).run before).2 with
            ⟨visits, results, after, ran, count, tours⟩
          refine ⟨Visit.descend expr visits, expr.withChildren results, after, ?_,
            Tour.of_children count tours⟩
          rw [Visit.map_call_descend]
          exact offered.bind (ran.bind_pure expr.withChildren)

/-- A replacement visits the occurrences in the tree in pre-order, each at most
once, and leaves out those below an answer.  The rule is called on the trees
there and on no other, the answers stand where they were given, and all other
nodes stay.  A rule that never answers is called once for each node and changes
nothing. -/
theorem replaceM_visits (rule : Expr -> StateM σ (Option Expr)) (before : σ) (expr : Expr) :
    Exists fun visits => Exists fun result => Exists fun after =>
      (expr.replaceM rule).run before = (result, after) ∧
      (expr.replaceM (recorded rule)).run (before, []) =
        (result, (after, visits.map Visit.call)) ∧
      Tour visits expr result ∧
      (visits.Pairwise fun first second => first.occurrence.path < second.occurrence.path) ∧
      ((forall offered state, ((rule offered).run state).1 = none) ->
        result = expr ∧ (visits.map Visit.call).length = expr.nodeCount) := by
  rcases exists_tour rule before expr with ⟨visits, result, after, ran, tour⟩
  refine ⟨visits, result, after, ran.plain_run, ran.record_run [], tour, ?_, ?_⟩
  · have sorted := expr.occurrences_sorted.filter fun occurrence =>
      decide ¬ Replaced visits occurrence
    rw [← tour.visited, List.pairwise_map] at sorted
    exact sorted
  · intro silent
    rw [List.length_map]
    apply tour.of_unanswered
    intro visit member
    rcases ran.answered visit.call (List.mem_map_of_mem member) with ⟨state, answered⟩
    exact answered.symm.trans (silent visit.call.1 state)

/-- Answers the third offer, with an operation on what was offered, and no other
one. -/
def thirdOffer (offered : Expr) : StateM Nat (Option Expr) := do
  let count ← get
  set (count + 1)
  pure (if count = 2 then some (.unary .neg offered) else none)

def offeredSum : Expr :=
  .binary .add (.param 1) (.param 2)

def offeredCall : Expr :=
  .function (.param 0) [offeredSum, .command 6 12 [.param 3]]

/-- Never answers with a tree. -/
def noAnswer (_offered : Expr) : StateM Nat (Option Expr) :=
  pure none

/-- The sum is offered behind the identifier of the function.  Its operands are
not offered, nor is it again inside the answer, and the command comes next.
Without the answer there are seven offers. -/
theorem replaceM_visits_thirdOffer :
    (Exists fun visits =>
      (offeredCall.replaceM thirdOffer).run 0 =
        (.function (.param 0) [.unary .neg offeredSum, .command 6 12 [.param 3]], 5) ∧
      Tour visits offeredCall
        (.function (.param 0) [.unary .neg offeredSum, .command 6 12 [.param 3]]) ∧
      visits.map Visit.call =
        [(offeredCall, none), (.param 0, none), (offeredSum, some (.unary .neg offeredSum)),
          (.command 6 12 [.param 3], none), (.param 3, none)]) ∧
    (forall offered state, ((noAnswer offered).run state).1 = none) ∧
    Exists fun visits => Tour visits offeredCall offeredCall ∧
      (visits.map Visit.call).length = 7 := by
  have silent : forall offered state, ((noAnswer offered).run state).1 = none := fun _ _ => rfl
  refine ⟨?_, silent, ?_⟩
  · rcases replaceM_visits thirdOffer 0 offeredCall with
      ⟨visits, result, after, ran, record, tour, _, _⟩
    have calls := congrArg (fun outcome => outcome.2.2) record
    rcases Prod.mk.inj ran with ⟨rfl, rfl⟩
    exact ⟨visits, rfl, tour, calls.symm⟩
  · rcases replaceM_visits noAnswer 0 offeredCall with
      ⟨visits, result, after, _, _, tour, _, unchanged⟩
    rcases unchanged silent with ⟨rfl, count⟩
    exact ⟨visits, tour, count⟩

end Expr
end Rpn
