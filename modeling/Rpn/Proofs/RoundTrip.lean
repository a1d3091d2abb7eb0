import Rpn.Instruction.RoundTrip
import Rpn.Proofs.Execution

/-!
# Assembling and decompiling are inverse to each other

Main statements: what is decompiled from a buffer is assembled to that buffer
under the same limits (`assemble_of_decompile`), and what is assembled from a
tree is decompiled to that tree under the same limits
(`decompile_of_assemble`).  In both directions the reported peak is the same.

The first statement rests on an invariant of executions, `Faithful`: the codes
of the trees on the stack are, in order, the bytes read so far, and the peak is
the stack need of these trees.  The second statement executes the code of a
tree in the middle of a buffer and above any trees (`executes`), so that it can
be proved from the children to the tree.
-/

namespace Rpn

/-! ## The bytes of one node -/

theorem Node.read_code_append {node : Node} (encodable : node.Encodable) (rest : List UInt8) :
    Instruction.read (node.code ++ rest) = .ok ⟨node.instruction, node.code.length, rest⟩ :=
  Instruction.read_append_of_encode (encode_of_encodable encodable) rest

theorem Expr.code_ne_nil {arities? : Option ArityTable} {expr : Expr}
    (admitted : expr.Admitted arities?) : expr.code ≠ [] := by
  have read := Node.read_code_append (admitted_iff.mp admitted).2.1 []
  have positive := Instruction.length_pos_of_read read
  rw [code_eq]
  exact List.append_ne_nil_of_right_ne_nil _ (List.length_pos_iff.mp positive)

theorem Node.encodable_of_read {node : Node} {input : List UInt8}
    {reading : Instruction.Reading} (read : Instruction.read input = .ok reading)
    (same : node.instruction = reading.instruction) :
    node.Encodable ∧ input = node.code ++ reading.rest ∧ reading.length = node.code.length := by
  rcases Instruction.encode_of_read read with ⟨bytes, encoded, shape, count⟩
  rw [← same] at encoded
  rw [code_of_encode encoded]
  exact ⟨⟨bytes, encoded⟩, shape, count⟩

namespace Decompiler

/-- Judging a final state succeeds exactly if nothing follows the end-marker,
the marker is there if it is required, and one tree is left. -/
theorem State.conclude_eq_ok_iff {options : DecompileOptions} {final : State}
    {framing : Framing} {decompiled : Decompiled} :
    final.conclude options framing = .ok decompiled ↔
      (framing = .terminated -> final.rest = []) ∧
        (framing = .unterminated -> options.requireTerminator = false) ∧
          Exists fun operand => final.stack = [operand] ∧
            decompiled = ⟨operand.expr, framing, final.peak⟩ := by
  unfold conclude
  constructor
  · intro done
    split at done
    · cases done
    · rename_i noTrailing
      split at done
      · cases done
      · rename_i noMissing
        split at done
        · rename_i operand shape
          refine ⟨fun marked => ?_, fun unmarked => ?_, operand, shape, (Except.ok.inj done).symm⟩
          · by_contra left
            exact noTrailing ⟨marked, left⟩
          · exact Bool.eq_false_iff.mpr fun required => noMissing ⟨unmarked, required⟩
        · cases done
  · rintro ⟨noTrailing, optional, operand, shape, rfl⟩
    rw [if_neg fun trailing => trailing.2 (noTrailing trailing.1), if_neg, shape]
    rintro ⟨unmarked, required⟩
    rw [optional unmarked] at required
    cases required

/-! ## From bytes to a tree and back -/

/-- What holds of an execution of `bytes` whenever a turn begins.  The trees on
the stack stand for the bytes read so far, and each of them could be assembled
under the limits of the execution. -/
structure Faithful (arities : ArityTable) (options : DecompileOptions) (bytes : List UInt8)
    (forest : List Expr) (state : State) : Prop where
  stack : state.stack = pile forest
  bytes : bytes = forest.flatMap Expr.code ++ state.rest
  admitted : forall expr, expr ∈ forest -> expr.Admitted (some arities)
  shallow : forall expr, expr ∈ forest -> expr.depth ≤ max 1 options.nestingLimit
  peak : state.peak = Expr.needOfAll forest
  room : Expr.needOfAll forest ≤ options.stackLimit

namespace Faithful

variable {arities : ArityTable} {options : DecompileOptions} {bytes : List UInt8}

theorem start (arities : ArityTable) (options : DecompileOptions) (bytes : List UInt8) :
    Faithful arities options bytes [] (.start bytes) where
  stack := rfl
  bytes := rfl
  admitted := fun _ member => nomatch member
  shallow := fun _ member => nomatch member
  peak := rfl
  room := Nat.zero_le _

/-- A turn regroups the end of the forest under one node and reads the code of
that node. -/
theorem next {forest : List Expr} {state following : State}
    (faithful : Faithful arities options bytes forest state)
    (turned : state.turn arities options = .next following) :
    Exists fun grown => Faithful arities options bytes grown following := by
  rcases (State.turn_eq_next_iff faithful.stack).mp turned with
    ⟨reading, left, expr, read, same, known, rfl, shallow, room, rfl⟩
  rcases Node.encodable_of_read read same with ⟨encodable, consumed, _⟩
  have admitted := List.forall_mem_append.mp faithful.admitted
  have grown := Expr.needOfAll_append_singleton left expr
  refine ⟨left ++ [expr], ?_, ?_, ?_, ?_, ?_, ?_⟩
  · rfl
  · -- The codes of the children end the bytes read before; the node's own is next.
    rw [faithful.bytes, consumed]
    simp only [State.settled, State.consumed, List.flatMap_append, List.flatMap_cons,
      List.flatMap_nil, List.append_nil, List.append_assoc, Expr.code_eq expr]
  · refine List.forall_mem_append.mpr ⟨admitted.1, List.forall_mem_singleton.mpr ?_⟩
    refine Expr.admitted_iff.mpr ⟨admitted.2, encodable, fun table given => ?_⟩
    exact Option.some.inj given ▸ known
  · exact List.forall_mem_append.mpr
      ⟨(List.forall_mem_append.mp faithful.shallow).1, List.forall_mem_singleton.mpr shallow⟩
  · rw [grown, ← faithful.peak]
    simp only [State.settled, State.consumed, List.length_append, List.length_singleton]
  · have fitted := faithful.room
    omega

theorem of_reaches {state : State} (steps : State.Reaches arities options (.start bytes) state) :
    Exists fun forest => Faithful arities options bytes forest state := by
  induction steps with
  | refl => exact ⟨[], start arities options bytes⟩
  | tail _ turned inductionHypothesis =>
      rcases inductionHypothesis with ⟨forest, faithful⟩
      exact faithful.next turned

end Faithful

end Decompiler

open Decompiler

private theorem exists_faithful_of_decompile {arities : ArityTable} {options : DecompileOptions}
    {bytes : List UInt8} {decompiled : Decompiled}
    (done : decompile arities options bytes = .ok decompiled) :
    Exists fun last => Faithful arities options bytes [decompiled.expr] last ∧
      last.rest = decompiled.framing.mark ∧ last.peak = decompiled.peak := by
  cases bytes with
  | nil => cases done
  | cons first others =>
      rw [decompile_eq_outcome (List.cons_ne_nil first others)] at done
      rcases State.exists_last arities options (.start (first :: others)) with
        ⟨last, steps, ⟨final, framing, turned⟩ | ⟨final, error, turned⟩⟩
      · rw [State.outcome_of_reaches steps, State.outcome_of_finished turned] at done
        rcases State.conclude_eq_ok_iff.mp done with ⟨noTrailing, _, operand, alone, rfl⟩
        rcases Faithful.of_reaches steps with ⟨forest, faithful⟩
        have ending := (State.turn_eq_finished_iff faithful.stack).mp turned
        have finalStack : final.stack = last.stack := by
          rcases ending with ⟨_, rfl, _⟩ | ⟨_, _, _, rfl, _⟩
          · rfl
          · rfl
        have forestEq : forest = [operand.expr] := by
          rw [← map_expr_reverse_pile forest, ← faithful.stack, ← finalStack, alone]
          rfl
        subst forestEq
        refine ⟨last, faithful, ?_⟩
        rcases ending with ⟨ended, rfl, rfl⟩ | ⟨reading, read, stop, rfl, rfl⟩
        · exact ⟨ended, rfl⟩
        · rcases Instruction.encode_of_read read with ⟨code, encoded, shape, _⟩
          rw [stop] at encoded
          cases encoded
          have behind : reading.rest = [] := noTrailing rfl
          rw [behind] at shape
          exact ⟨shape, rfl⟩
      · rw [State.outcome_of_reaches steps, State.outcome_of_failed turned] at done
        cases done

/-- One tree left in front of the mark of a framing is assembled to the whole
buffer. -/
theorem Decompiler.Faithful.assemble {arities : ArityTable} {options : DecompileOptions}
    {bytes : List UInt8} {expr : Expr} {last : State} {framing : Framing}
    {arities? : Option ArityTable} (faithful : Faithful arities options bytes [expr] last)
    (marked : last.rest = framing.mark) (admitted : expr.Admitted arities?) :
    expr.assemble ⟨framing, options.stackLimit, options.nestingLimit⟩ arities? =
      .ok ⟨bytes, last.peak⟩ := by
  have shallow := faithful.shallow expr List.mem_cons_self
  have positive := expr.need_pos
  have need : Expr.needOfAll [expr] = expr.need := by
    simp only [Expr.needOfAll]
    omega
  have same : (⟨bytes, last.peak⟩ : Assembled) = ⟨expr.code ++ framing.mark, expr.need⟩ := by
    rw [faithful.bytes, faithful.peak, need, marked, List.flatMap_singleton]
  exact Expr.assemble_eq_ok_iff.mpr ⟨admitted, shallow, need ▸ faithful.room, same⟩

/-- The tree of a buffer is assembled to exactly that buffer, under the limits
under which it was decompiled, and needs exactly the stack that was used. -/
theorem assemble_of_decompile {arities : ArityTable} {options : DecompileOptions}
    {bytes : List UInt8} {decompiled : Decompiled}
    (done : decompile arities options bytes = .ok decompiled) :
    decompiled.expr.assemble
        ⟨decompiled.framing, options.stackLimit, options.nestingLimit⟩ (some arities) =
      .ok ⟨bytes, decompiled.peak⟩ ∧
    decompiled.expr.assemble
        ⟨decompiled.framing, options.stackLimit, options.nestingLimit⟩ none =
      .ok ⟨bytes, decompiled.peak⟩ := by
  rcases exists_faithful_of_decompile done with ⟨last, faithful, rest, peak⟩
  have admitted := faithful.admitted decompiled.expr List.mem_cons_self
  rw [← peak]
  exact ⟨faithful.assemble rest admitted, faithful.assemble rest admitted.withoutTable⟩

/-- A command of a string beyond the basic plane and of a function with a
negative identifier, at the least limits that admit it. -/
def surrogateCall : Expr :=
  .command 6 12
    [.const (.string "é𝄞"), .function (.const (.int (-1) .inline)) [.param 7]]

def surrogateCallBytes : List UInt8 :=
  [0xA5, 0xE9, 0x00, 0x34, 0xD8, 0x1E, 0xDD, 0x00, 0x00, 0x3F, 0xB6, 0x85, 0x8B, 0x06, 0x0C,
    0x00, 0x00, 0x00, 0xA1]

theorem assemble_of_decompile_surrogateCall :
    decompile (.ofRows [(6, 12, 2)]) ⟨3, 3, true⟩ surrogateCallBytes =
        .ok ⟨surrogateCall, .terminated, 3⟩ ∧
      surrogateCall.assemble ⟨.terminated, 3, 3⟩ (some (.ofRows [(6, 12, 2)])) =
        .ok ⟨surrogateCallBytes, 3⟩ ∧
      surrogateCall.assemble ⟨.terminated, 3, 3⟩ none = .ok ⟨surrogateCallBytes, 3⟩ := by
  have done : decompile (.ofRows [(6, 12, 2)]) ⟨3, 3, true⟩ surrogateCallBytes =
      .ok ⟨surrogateCall, .terminated, 3⟩ := by decide +kernel
  exact ⟨done, assemble_of_decompile done⟩

/-! ## From a tree to bytes and back -/

namespace Decompiler

/-- Where an execution stands once the trees of a forest have been read from
the front of a state's bytes. -/
structure Grown (arities : ArityTable) (options : DecompileOptions) (left forest : List Expr)
    (rest : List UInt8) (state following : State) : Prop where
  steps : State.Reaches arities options state following
  rest : following.rest = rest
  stack : following.stack = pile (left ++ forest)
  peak : following.peak = max state.peak (left.length + Expr.needOfAll forest)

variable {arities : ArityTable} {options : DecompileOptions}

/-- One turn reads the code of a node and puts its tree in the place of its
children. -/
theorem exists_grown_node {left : List Expr} {expr : Expr} {rest : List UInt8} {state : State}
    (stack : state.stack = pile (left ++ expr.children))
    (bytes : state.rest = expr.node.code ++ rest) (admitted : expr.node.Admitted (some arities))
    (shallow : expr.depth ≤ max 1 options.nestingLimit)
    (room : left.length < options.stackLimit) :
    Exists fun following => state.turn arities options = .next following ∧
      following.rest = rest ∧ following.stack = pile (left ++ [expr]) ∧
        following.peak = max state.peak (left.length + 1) := by
  have read := Node.read_code_append admitted.1 rest
  rw [← bytes] at read
  refine ⟨_, (State.turn_eq_next_iff stack).mpr
    ⟨_, left, expr, read, rfl, admitted.2 arities rfl, rfl, shallow, room, rfl⟩, rfl, rfl, ?_⟩
  simp only [State.settled, State.consumed, List.length_append, List.length_singleton]

/-- Whether executing the code of a tree, above any trees and in front of any
bytes, puts that tree on top.  The limits are the ones under which the tree is
assembled. -/
def Executes (arities : ArityTable) (options : DecompileOptions) (expr : Expr) : Prop :=
  forall (left : List Expr) (rest : List UInt8) (state : State), state.stack = pile left ->
    state.rest = expr.code ++ rest -> expr.Admitted (some arities) ->
      expr.depth ≤ max 1 options.nestingLimit ->
        left.length + expr.need ≤ options.stackLimit -> left.length ≤ state.peak ->
          Exists fun following => Grown arities options left [expr] rest state following

private theorem exists_grown_of_executes {forest : List Expr}
    (each : forall expr, expr ∈ forest -> Executes arities options expr)
    {left : List Expr} {rest : List UInt8} {state : State} (stack : state.stack = pile left)
    (bytes : state.rest = forest.flatMap Expr.code ++ rest)
    (admitted : forall expr, expr ∈ forest -> expr.Admitted (some arities))
    (shallow : forall expr, expr ∈ forest -> expr.depth ≤ max 1 options.nestingLimit)
    (room : left.length + Expr.needOfAll forest ≤ options.stackLimit)
    (reached : left.length ≤ state.peak) :
    Exists fun following => Grown arities options left forest rest state following := by
  induction forest generalizing left state with
  | nil =>
      refine ⟨state, .refl, bytes, ?_, ?_⟩
      · rw [stack, List.append_nil]
      · simp only [Expr.needOfAll, Nat.add_zero, Nat.max_eq_left reached]
  | cons expr others inductionHypothesis =>
      have eachPart := List.forall_mem_cons.mp each
      have admittedPart := List.forall_mem_cons.mp admitted
      have shallowPart := List.forall_mem_cons.mp shallow
      have positive := expr.need_pos
      simp only [Expr.needOfAll] at room
      rw [List.flatMap_cons, List.append_assoc] at bytes
      rcases eachPart.1 left _ state stack bytes admittedPart.1 shallowPart.1 (by omega) reached
        with ⟨middle, first⟩
      have middlePeak := first.peak
      simp only [Expr.needOfAll] at middlePeak
      rcases inductionHypothesis eachPart.2 first.stack first.rest admittedPart.2 shallowPart.2
        (by rw [List.length_append, List.length_singleton]; omega)
        (by rw [List.length_append, List.length_singleton]; omega) with ⟨following, others⟩
      refine ⟨following, first.steps.trans others.steps, others.rest, ?_, ?_⟩
      · rw [others.stack, List.append_assoc, List.singleton_append]
      · rw [others.peak, middlePeak, List.length_append, List.length_singleton]
        simp only [Expr.needOfAll]
        omega

theorem executes (arities : ArityTable) (options : DecompileOptions) (expr : Expr) :
    Executes arities options expr := by
  induction expr using Expr.induct_children with
  | step expr inductionHypothesis =>
      intro left rest state stack bytes admitted shallow room reached
      have below : forall child, child ∈ expr.children ->
          child.depth ≤ max 1 options.nestingLimit := by
        have whole := expr.depth_eq
        exact Expr.depthOfAll_le_iff.mp (by omega)
      have need := expr.need_eq
      have nodes := Expr.admitted_iff.mp admitted
      rw [Expr.code_eq, List.append_assoc] at bytes
      rcases exists_grown_of_executes inductionHypothesis stack bytes nodes.1 below (by omega)
        reached with ⟨middle, operands⟩
      rcases exists_grown_node operands.stack operands.rest nodes.2 shallow (by omega) with
        ⟨following, turned, followingRest, followingStack, followingPeak⟩
      refine ⟨following, operands.steps.tail turned, followingRest, followingStack, ?_⟩
      rw [followingPeak, operands.peak]
      simp only [Expr.needOfAll]
      omega

end Decompiler

/-- The bytes of a tree are decompiled to exactly that tree, under the limits
under which it was assembled, and use exactly the stack that was reported.  An
end-marker may be asked for if there is one. -/
theorem decompile_of_assemble {arities : ArityTable} {options : AssemblyOptions} {expr : Expr}
    {assembled : Assembled} {requireTerminator : Bool}
    (done : expr.assemble options (some arities) = .ok assembled)
    (marked : requireTerminator = true -> options.framing = .terminated) :
    decompile arities ⟨options.stackLimit, options.nestingLimit, requireTerminator⟩
      assembled.bytes = .ok ⟨expr, options.framing, assembled.peak⟩ := by
  rcases Expr.assemble_eq_ok_iff.mp done with ⟨admitted, shallow, room, rfl⟩
  have nonempty : expr.code ++ options.framing.mark ≠ [] :=
    List.append_ne_nil_of_left_ne_nil (Expr.code_ne_nil admitted) _
  rw [decompile_eq_outcome nonempty]
  have executed : Exists fun last => Grown arities
      ⟨options.stackLimit, options.nestingLimit, requireTerminator⟩ [] [expr]
      options.framing.mark (.start (expr.code ++ options.framing.mark)) last := by
    refine executes _ _ expr [] _ _ rfl rfl admitted shallow ?_ (Nat.zero_le _)
    rw [List.length_nil, Nat.zero_add]
    exact room
  rcases executed with ⟨last, grown⟩
  rw [State.outcome_of_reaches grown.steps]
  have peak : last.peak = expr.need := by
    have positive := expr.need_pos
    rw [grown.peak]
    simp only [State.start, List.length_nil, Expr.needOfAll]
    omega
  cases framing : options.framing with
  | unterminated =>
      have ended : last.rest = [] := by rw [grown.rest, framing]; rfl
      rw [State.outcome_of_finished
        ((State.turn_eq_finished_iff grown.stack).mpr (Or.inl ⟨ended, rfl, rfl⟩))]
      apply State.conclude_eq_ok_iff.mpr
      refine ⟨(fun impossible => by cases impossible), fun _ => ?_, _, grown.stack, ?_⟩
      · apply Bool.eq_false_iff.mpr
        intro required
        cases framing.symm.trans (marked required)
      · rw [peak]
        rfl
  | terminated =>
      have stop : last.rest = Opcode.stop.toByte :: [] := by rw [grown.rest, framing]; rfl
      have read : Instruction.read last.rest = .ok ⟨.stop, 1, []⟩ := by
        have encoded : Instruction.stop.encode = .ok [Opcode.stop.toByte] := rfl
        rw [stop]
        exact Instruction.read_append_of_encode encoded []
      rw [State.outcome_of_finished
        ((State.turn_eq_finished_iff grown.stack).mpr (Or.inr ⟨_, read, rfl, rfl, rfl⟩))]
      apply State.conclude_eq_ok_iff.mpr
      refine ⟨fun _ => rfl, (fun impossible => by cases impossible), _, grown.stack, ?_⟩
      rw [← peak]
      rfl

theorem decompile_of_assemble_surrogateCall :
    surrogateCall.assemble ⟨.terminated, 3, 3⟩ (some (.ofRows [(6, 12, 2)])) =
        .ok ⟨surrogateCallBytes, 3⟩ ∧
      decompile (.ofRows [(6, 12, 2)]) ⟨3, 3, true⟩ surrogateCallBytes =
        .ok ⟨surrogateCall, .terminated, 3⟩ := by
  have done : surrogateCall.assemble ⟨.terminated, 3, 3⟩ (some (.ofRows [(6, 12, 2)])) =
      .ok ⟨surrogateCallBytes, 3⟩ := by decide +kernel
  exact ⟨done, decompile_of_assemble done fun _ => rfl⟩

end Rpn
