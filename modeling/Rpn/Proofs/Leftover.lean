import Rpn.Proofs.CodeListing

/-!
# What an unbalanced buffer leaves

An execution that reaches the end of its buffer with no tree or with several
has lost nothing on the way.  The codes of the trees on the stack are, bottom
first, the bytes read so far: that is the invariant of executions, and it does
not ask for a single tree.  Each of the trees was checked against the limits
when it was put there and is assembled under the same limits again.

Main statement: the trees that are reported are assembled to the buffer without
its end-marker (`reassembled_of_unbalanced`).
-/

namespace Rpn

namespace Expr

/-- A list of trees is assembled tree by tree. -/
theorem mapM_assemble {options : AssemblyOptions} {arities? : Option ArityTable}
    {forest : List Expr}
    (each : forall expr, expr ∈ forest -> expr.assemble options arities? =
      .ok ⟨expr.code ++ options.framing.mark, expr.need⟩) :
    forest.mapM (fun expr => expr.assemble options arities?) =
      .ok (forest.map fun expr => ⟨expr.code ++ options.framing.mark, expr.need⟩) := by
  induction forest with
  | nil => rfl
  | cons expr rest inductionHypothesis =>
      have parts := List.forall_mem_cons.mp each
      rw [List.mapM_cons, parts.1, inductionHypothesis parts.2]
      rfl

/-- A tree of a list needs no more than the list. -/
theorem need_le_needOfAll {forest : List Expr} {expr : Expr} (member : expr ∈ forest) :
    expr.need ≤ needOfAll forest := by
  rcases List.getElem_of_mem member with ⟨place, within, rfl⟩
  have sum := needOfAll_le_iff.mp (Nat.le_refl (needOfAll forest)) place within
  omega

end Expr

namespace Decompiler

variable {arities : ArityTable} {options : DecompileOptions} {bytes : List UInt8}

/-- The trees on the stack are assembled under the limits of the execution, and
to the bytes read so far. -/
theorem Faithful.mapM_assemble {forest : List Expr} {state : State}
    (faithful : Faithful arities options bytes forest state) :
    Exists fun parts : List Assembled =>
      forest.mapM (fun expr => expr.assemble
        ⟨.unterminated, options.stackLimit, options.nestingLimit⟩ (some arities)) = .ok parts ∧
      parts.flatMap Assembled.bytes ++ state.rest = bytes := by
  refine ⟨_, Expr.mapM_assemble fun expr member => ?_, ?_⟩
  · have room := Nat.le_trans (Expr.need_le_needOfAll member) faithful.room
    exact Expr.assemble_eq_ok_iff.mpr
      ⟨faithful.admitted expr member, faithful.shallow expr member, room, rfl⟩
  · simp only [List.flatMap_map, Framing.mark, List.append_nil]
    exact faithful.bytes.symm

/-- An execution that goes on has not read the end-marker. -/
theorem State.stop_not_mem_trace {state : State}
    (steps : State.Reaches arities options (.start bytes) state) :
    .stop ∉ state.trace.map ListedInstruction.instruction := by
  induction steps with
  | refl => exact List.not_mem_nil
  | tail earlier turned inductionHypothesis =>
      rcases Faithful.of_reaches earlier with ⟨forest, faithful⟩
      rcases (State.turn_eq_next_iff faithful.stack).mp turned with
        ⟨reading, _, expr, _, same, _, _, _, _, rfl⟩
      have going : reading.instruction ≠ .stop := same ▸ expr.node.instruction_ne_stop
      exact List.not_mem_cons_of_ne_of_not_mem going.symm inductionHypothesis

/-- A listing has an end-marker exactly if the bytes left by an execution are
one. -/
theorem Visited.stop_mem_listing_iff {forest : List Expr} {state : State} {framing : Framing}
    (visited : Visited arities options bytes forest state) (marked : state.rest = framing.mark) :
    Exists fun entries => disassemble bytes = .ok entries ∧
      (.stop ∈ entries.map ListedInstruction.instruction ↔ framing = .terminated) := by
  rcases exists_disassembleFrom_mark_instructions state.offset framing with
    ⟨marks, listed, instructions⟩
  refine ⟨state.trace.reverse ++ marks, ?_, ?_⟩
  · rw [visited.disassemble_eq, marked, listed]
    rfl
  · have before := State.stop_not_mem_trace visited.steps
    rw [List.map_append, List.map_reverse, List.mem_append, List.mem_reverse, instructions]
    cases framing with
    | terminated => exact iff_of_true (Or.inr List.mem_cons_self) rfl
    | unterminated =>
        refine iff_of_false ?_ nofun
        rintro (earlier | behind)
        · exact before earlier
        · cases behind

end Decompiler

open Decompiler

/-- The trees that an unbalanced buffer leaves are not one, each of them is
assembled under the limits of the execution, and their bytes, bottom first, are
the buffer, but for the end-marker if there is one. -/
theorem reassembled_of_unbalanced {arities : ArityTable} {options : DecompileOptions}
    {bytes : List UInt8} {stack : List Expr}
    (failed : decompile arities options bytes = .error (.unbalanced stack)) :
    stack.length ≠ 1 ∧
    Exists fun parts : List Assembled =>
      stack.mapM (fun expr => expr.assemble
        ⟨.unterminated, options.stackLimit, options.nestingLimit⟩ (some arities)) = .ok parts ∧
      Exists fun entries => disassemble bytes = .ok entries ∧
        if .stop ∈ entries.map ListedInstruction.instruction then
          parts.flatMap Assembled.bytes ++ [0xA1] = bytes
        else parts.flatMap Assembled.bytes = bytes := by
  have ending := ends arities options bytes
  rw [failed] at ending
  cases ending with
  | failed _ fault => cases fault
  | @unbalanced forest last framing visited marked _ several =>
      rcases visited.faithful.mapM_assemble with ⟨parts, assembled, whole⟩
      rcases visited.stop_mem_listing_iff marked with ⟨entries, listed, stop⟩
      refine ⟨several, parts, assembled, entries, listed, ?_⟩
      rw [marked] at whole
      cases framing with
      | terminated => exact (if_pos (stop.mpr rfl)).mpr whole
      | unterminated =>
          rw [if_neg (stop.not.mpr nofun), ← whole]
          exact (List.append_nil _).symm

/-- A string whose only unit begins with the byte of the end-marker, and a
command above it that takes two of three values. -/
theorem reassembled_of_unbalanced_twoTrees :
    let arities := ArityTable.ofRows [(6, 12, 2)]
    let string := [0xA5, 0xA1, 0x00, 0x00, 0x00]
    let command := [0x41, 0x42, 0x8B, 0x06, 0x0C, 0x00, 0x00, 0x00]
    let stack := [Expr.const (.string "¡"),
      .command 6 12 [.const (.int 1 .inline), .const (.int 2 .inline)]]
    decompile arities ⟨3, 2, true⟩ (string ++ command ++ [0xA1]) = .error (.unbalanced stack) ∧
      stack.length ≠ 1 ∧
      stack.mapM (fun expr => expr.assemble ⟨.unterminated, 3, 2⟩ (some arities)) =
        .ok [⟨string, 1⟩, ⟨command, 2⟩] ∧
      Exists fun entries => disassemble (string ++ command ++ [0xA1]) = .ok entries ∧
        .stop ∈ entries.map ListedInstruction.instruction := by
  intro arities string command stack
  have failed : decompile arities ⟨3, 2, true⟩ (string ++ command ++ [0xA1]) =
      .error (.unbalanced stack) := by decide +kernel
  have assembled : stack.mapM (fun expr => expr.assemble ⟨.unterminated, 3, 2⟩ (some arities)) =
      .ok [⟨string, 1⟩, ⟨command, 2⟩] := by decide +kernel
  rcases reassembled_of_unbalanced failed with ⟨several, parts, same, entries, listed, whole⟩
  refine ⟨failed, several, assembled, entries, listed, ?_⟩
  -- Without an end-marker the two codes would be the whole buffer.
  by_contra unmarked
  rw [if_neg unmarked, ← Except.ok.inj (assembled.symm.trans same)] at whole
  exact absurd whole (by decide)

end Rpn
