import Rpn.Proofs.Ending

/-!
# Limits decide acceptance and nothing else

A limit is compared with the stack before each push and with the depth of each
new tree, many times in an execution.  Main statement: the two numbers that an
outcome reports, its peak and the depth of its tree, stand for all of these
comparisons (`decompile_limits`).  A buffer is decompiled under a pair of
limits exactly if it is without limits and the two numbers are within them, and
the outcome is the same.

No comparison is lost, because a tree that was checked on the way is part of
the tree at the end and the peak never falls (`reaches_of_within`).  Without
limits means limits of the length of the buffer: every value on the stack and
every level of a tree has an instruction of its own.
-/

namespace Rpn

/-! ## Trees and their code -/

theorem Node.length_code_pos {node : Node} (encodable : node.Encodable) :
    0 < node.code.length :=
  Instruction.length_pos_of_read (Node.read_code_append encodable [])

namespace Expr

private theorem nodeCountOfAll_le_length_of_mem {forest : List Expr}
    (each : forall expr, expr ∈ forest -> expr.nodeCount ≤ expr.code.length) :
    nodeCountOfAll forest ≤ (forest.flatMap code).length := by
  induction forest with
  | nil => exact Nat.zero_le _
  | cons expr rest inductionHypothesis =>
      have parts := List.forall_mem_cons.mp each
      rw [nodeCountOfAll, List.flatMap_cons, List.length_append]
      exact Nat.add_le_add parts.1 (inductionHypothesis parts.2)

/-- Every node of a tree has bytes of its own in the code. -/
theorem nodeCount_le_length_code {arities? : Option ArityTable} {expr : Expr}
    (admitted : expr.Admitted arities?) : expr.nodeCount ≤ expr.code.length := by
  induction expr using induct_children with
  | step expr inductionHypothesis =>
      have parts := admitted_iff.mp admitted
      have children := nodeCountOfAll_le_length_of_mem fun child member =>
        inductionHypothesis child member (parts.1 child member)
      have own := Node.length_code_pos parts.2.1
      rw [nodeCount_eq, code_eq, List.length_append]
      omega

end Expr

namespace Decompiler

variable {arities : ArityTable} {options : DecompileOptions} {bytes : List UInt8}

/-- The trees on the stack have no more nodes than bytes were read. -/
theorem Visited.nodeCountOfAll_add_le {forest : List Expr} {state : State}
    (visited : Visited arities options bytes forest state) :
    Expr.nodeCountOfAll forest + state.rest.length ≤ bytes.length := by
  have read := Expr.nodeCountOfAll_le_length_of_mem fun expr member =>
    Expr.nodeCount_le_length_code (visited.faithful.admitted expr member)
  have whole := congrArg List.length visited.faithful.bytes
  rw [List.length_append] at whole
  omega

/-- In front of an instruction there are fewer nodes than bytes. -/
theorem Visited.nodeCountOfAll_lt_of_read {forest : List Expr} {state : State}
    {reading : Instruction.Reading} (visited : Visited arities options bytes forest state)
    (read : Instruction.read state.rest = .ok reading) :
    Expr.nodeCountOfAll forest < bytes.length := by
  have whole := visited.nodeCountOfAll_add_le
  have unread := List.length_pos_iff.mpr (Instruction.ne_nil_of_read read)
  omega

/-! ## The same execution under other limits -/

/-- An execution that ends with trees and a peak within other limits is an
execution under those limits.  The induction goes back from the end: the trees
of a state are trees of the next one or children of them. -/
theorem State.reaches_of_within {within : DecompileOptions} {state last : State}
    {forest lastForest : List Expr} (steps : State.Reaches arities options state last)
    (stack : state.stack = pile forest) (lastStack : last.stack = pile lastForest)
    (room : last.peak ≤ within.stackLimit)
    (shallow : forall expr, expr ∈ lastForest -> expr.depth ≤ max 1 within.nestingLimit) :
    State.Reaches arities within state last ∧ state.peak ≤ last.peak ∧
      forall expr, expr ∈ forest -> expr.depth ≤ max 1 within.nestingLimit := by
  induction steps using Relation.ReflTransGen.head_induction_on generalizing forest with
  | refl =>
      have same : lastForest = forest := pile_injective (lastStack.symm.trans stack)
      exact ⟨.refl, Nat.le_refl _, same ▸ shallow⟩
  | head turned _ inductionHypothesis =>
      rcases (State.turn_eq_next_iff stack).mp turned with
        ⟨reading, left, expr, read, same, known, rfl, _, _, rfl⟩
      rcases inductionHypothesis rfl with ⟨later, grown, below⟩
      have parts := List.forall_mem_append.mp below
      have exprShallow := List.forall_mem_singleton.mp parts.2
      have childrenShallow : forall child, child ∈ expr.children ->
          child.depth ≤ max 1 within.nestingLimit := by
        have whole := expr.depth_eq
        exact Expr.depthOfAll_le_iff.mp (by omega)
      simp only [State.settled, State.consumed, List.length_append, List.length_singleton]
        at grown
      have turnedWithin := (State.turn_eq_next_iff stack).mpr
        ⟨reading, left, expr, read, same, known, rfl, exprShallow,
          show left.length < within.stackLimit by omega, rfl⟩
      exact ⟨.head turnedWithin later, by omega,
        List.forall_mem_append.mpr ⟨parts.1, childrenShallow⟩⟩

end Decompiler

open Decompiler

variable {arities : ArityTable} {options : DecompileOptions} {bytes : List UInt8}

theorem decompile_of_within {within : DecompileOptions} {decompiled : Decompiled}
    (done : decompile arities options bytes = .ok decompiled)
    (strict : within.requireTerminator = options.requireTerminator)
    (room : decompiled.peak ≤ within.stackLimit)
    (shallow : decompiled.expr.depth ≤ max 1 within.nestingLimit) :
    decompile arities within bytes = .ok decompiled := by
  have ending := ends arities options bytes
  rw [done] at ending
  cases ending with
  | decompiled visited marked noMissing =>
      have bare : (State.start bytes).stack = pile [] := rfl
      rcases State.reaches_of_within visited.steps bare visited.faithful.stack room
        (List.forall_mem_singleton.mpr shallow) with ⟨steps, _, _⟩
      exact decompile_of_visited (.of_reaches visited.nonempty steps visited.faithful.stack)
        marked fun unmarked => strict.trans (noMissing unmarked)

/-- What is reported is within the limits, and within the length of the buffer
whatever the limits are. -/
theorem peak_depth_le_of_decompile {decompiled : Decompiled}
    (done : decompile arities options bytes = .ok decompiled) :
    decompiled.peak ≤ min options.stackLimit bytes.length ∧
      decompiled.expr.depth ≤ min (max 1 options.nestingLimit) bytes.length := by
  have ending := ends arities options bytes
  rw [done] at ending
  cases ending with
  | @decompiled expr last framing visited marked _ =>
      have limit := visited.faithful.room
      have shallow := visited.faithful.shallow expr List.mem_cons_self
      have nodes := visited.nodeCountOfAll_add_le
      have low := Expr.needOfAll_le_nodeCountOfAll [expr]
      have levels := expr.depth_le_nodeCount
      rw [← visited.faithful.peak] at limit low
      simp only [Expr.nodeCountOfAll] at nodes low
      simp only
      omega

/-- Limits of the length of the buffer are never exceeded. -/
theorem not_exceeded_of_length_le (room : bytes.length ≤ options.stackLimit)
    (shallow : bytes.length ≤ options.nestingLimit) (offset limit : Nat) :
    decompile arities options bytes ≠ .error (.stackOverflow offset limit) ∧
      decompile arities options bytes ≠ .error (.nestingTooDeep offset limit) := by
  have ending := ends arities options bytes
  generalize decompile arities options bytes = outcome at ending ⊢
  constructor
  · rintro rfl
    cases ending with
    | failed visited fault =>
        cases fault with
        | @overflow reading left expr read _ _ split _ full =>
            have nodes := visited.nodeCountOfAll_lt_of_read read
            have count := Expr.length_le_needOfAll left
            have low := Expr.needOfAll_le_nodeCountOfAll left
            rw [split, Expr.nodeCountOfAll_append] at nodes
            omega
  · rintro rfl
    cases ending with
    | failed visited fault =>
        cases fault with
        | @nesting reading left expr read _ _ split deep =>
            have nodes := visited.nodeCountOfAll_lt_of_read read
            have levels := expr.depth_le_nodeCount
            have count := expr.nodeCount_eq
            rw [split, Expr.nodeCountOfAll_append] at nodes
            omega

/-- What limits of the length of the buffer admit, other limits refuse only for
one of the two numbers reported. -/
theorem decompile_eq_ok_iff_of_length_le {strict : Bool} {stackLimit nestingLimit : Nat}
    (room : bytes.length ≤ stackLimit) (shallow : bytes.length ≤ nestingLimit)
    {stack nesting : Nat} {decompiled : Decompiled} :
    decompile arities ⟨stack, nesting, strict⟩ bytes = .ok decompiled ↔
      decompile arities ⟨stackLimit, nestingLimit, strict⟩ bytes = .ok decompiled ∧
        decompiled.peak ≤ stack ∧ decompiled.expr.depth ≤ max 1 nesting := by
  constructor
  · intro done
    rcases peak_depth_le_of_decompile done with ⟨peak, depth⟩
    rcases Nat.le_min.mp peak with ⟨low, lowAmple⟩
    rcases Nat.le_min.mp depth with ⟨level, levelAmple⟩
    have levelWithin : decompiled.expr.depth ≤ max 1 nestingLimit := by omega
    exact ⟨decompile_of_within done rfl (Nat.le_trans lowAmple room) levelWithin, low, level⟩
  · rintro ⟨done, low, level⟩
    exact decompile_of_within done rfl low level

/-- The peak is the least stack limit under which the buffer is decompiled. -/
theorem exists_decompile_iff_peak_le {strict : Bool} {stack nesting : Nat}
    {decompiled : Decompiled}
    (done : decompile arities ⟨stack, nesting, strict⟩ bytes = .ok decompiled) (limit : Nat) :
    (Exists fun other => decompile arities ⟨limit, nesting, strict⟩ bytes = .ok other) ↔
      decompiled.peak ≤ limit := by
  have size := Nat.le_refl bytes.length
  rcases (decompile_eq_ok_iff_of_length_le size size).mp done with ⟨ample, _, level⟩
  constructor
  · rintro ⟨other, doneOther⟩
    rcases (decompile_eq_ok_iff_of_length_le size size).mp doneOther with ⟨ampleOther, low, _⟩
    cases ample.symm.trans ampleOther
    exact low
  · intro low
    exact ⟨decompiled, (decompile_eq_ok_iff_of_length_le size size).mpr ⟨ample, low, level⟩⟩

theorem decompile_of_higher {strict : Bool} {stack nesting higher deeper : Nat}
    {decompiled : Decompiled}
    (done : decompile arities ⟨stack, nesting, strict⟩ bytes = .ok decompiled)
    (more : stack ≤ higher) (further : nesting ≤ deeper) :
    decompile arities ⟨higher, deeper, strict⟩ bytes = .ok decompiled := by
  rcases peak_depth_le_of_decompile done with ⟨peak, depth⟩
  have low := (Nat.le_min.mp peak).1
  have level : decompiled.expr.depth ≤ max 1 nesting := (Nat.le_min.mp depth).1
  have levelHigher : decompiled.expr.depth ≤ max 1 deeper := by omega
  exact decompile_of_within done rfl (Nat.le_trans low more) levelHigher

/-- Limits that are not less than the length of the buffer are as good as none.
They are never exceeded, and under any other limits the outcome is the same if
its peak and the depth of its tree are within them, and an error if not.  So
the peak is the least stack limit under which the buffer is decompiled, and
raising a limit changes nothing for a buffer that is decompiled already. -/
theorem decompile_limits {strict : Bool} {stackLimit nestingLimit : Nat}
    (room : bytes.length ≤ stackLimit) (shallow : bytes.length ≤ nestingLimit) :
    (forall offset limit,
      decompile arities ⟨stackLimit, nestingLimit, strict⟩ bytes ≠
          .error (.stackOverflow offset limit) ∧
        decompile arities ⟨stackLimit, nestingLimit, strict⟩ bytes ≠
          .error (.nestingTooDeep offset limit)) ∧
    (forall stack nesting decompiled,
      decompile arities ⟨stack, nesting, strict⟩ bytes = .ok decompiled ↔
        decompile arities ⟨stackLimit, nestingLimit, strict⟩ bytes = .ok decompiled ∧
          decompiled.peak ≤ stack ∧ decompiled.expr.depth ≤ max 1 nesting) ∧
    (forall stack nesting decompiled,
      decompile arities ⟨stack, nesting, strict⟩ bytes = .ok decompiled ->
        forall limit,
          (Exists fun other => decompile arities ⟨limit, nesting, strict⟩ bytes = .ok other) ↔
            decompiled.peak ≤ limit) ∧
    forall stack nesting decompiled higher deeper,
      decompile arities ⟨stack, nesting, strict⟩ bytes = .ok decompiled ->
        stack ≤ higher -> nesting ≤ deeper ->
          decompile arities ⟨higher, deeper, strict⟩ bytes = .ok decompiled := by
  refine ⟨not_exceeded_of_length_le room shallow, ?_, ?_, ?_⟩
  · intro stack nesting decompiled
    exact decompile_eq_ok_iff_of_length_le room shallow
  · intro stack nesting decompiled done limit
    exact exists_decompile_iff_peak_le done limit
  · intro stack nesting decompiled higher deeper done more further
    exact decompile_of_higher done more further

/-- The call needs three values and three levels.  It is the same under these
limits and under ample ones, and two values are not enough. -/
theorem decompile_limits_surrogateCall :
    decompile (.ofRows [(6, 12, 2)]) ⟨19, 19, true⟩ surrogateCallBytes =
        .ok ⟨surrogateCall, .terminated, 3⟩ ∧
      decompile (.ofRows [(6, 12, 2)]) ⟨3, 3, true⟩ surrogateCallBytes =
        .ok ⟨surrogateCall, .terminated, 3⟩ ∧
      (¬ Exists fun other =>
        decompile (.ofRows [(6, 12, 2)]) ⟨2, 3, true⟩ surrogateCallBytes = .ok other) ∧
      decompile (.ofRows [(6, 12, 2)]) ⟨3, 512, true⟩ surrogateCallBytes =
        .ok ⟨surrogateCall, .terminated, 3⟩ ∧
      decompile (.ofRows [(6, 12, 4)]) ⟨19, 19, true⟩ surrogateCallBytes ≠
        .error (.stackOverflow 12 19) := by
  have ample : decompile (.ofRows [(6, 12, 2)]) ⟨19, 19, true⟩ surrogateCallBytes =
      .ok ⟨surrogateCall, .terminated, 3⟩ := by decide +kernel
  have size : surrogateCallBytes.length ≤ 19 := by decide
  rcases @decompile_limits (.ofRows [(6, 12, 2)]) _ true 19 19 size size with
    ⟨_, exactly, least, raised⟩
  have tight : decompile (.ofRows [(6, 12, 2)]) ⟨3, 3, true⟩ surrogateCallBytes =
      .ok ⟨surrogateCall, .terminated, 3⟩ :=
    (exactly 3 3 _).mpr ⟨ample, Nat.le_refl 3, by decide⟩
  refine ⟨ample, tight, ?_, raised 3 3 _ 3 512 tight (Nat.le_refl 3) (by decide), ?_⟩
  · intro other
    exact absurd ((least 3 3 _ tight 2).mp other) (by decide)
  · exact ((decompile_limits size size).1 12 19).1

end Rpn
