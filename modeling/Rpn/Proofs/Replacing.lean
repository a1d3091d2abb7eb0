import Rpn.Proofs.CodeListing
import Rpn.Proofs.Rewriting

/-!
# Replacing a parameter in code

A tree is put in the place of a parameter wherever it is referred to: under
operators, among arguments and in identifiers of functions.  In code the same is
done without looking at the tree at all.  A reference is one instruction, and
the instructions of the other tree take its place.

Main statement: replacing in a tree and then assembling it is assembling it and
then replacing in its listing (`Expr.assemble_replaceParam`).  The limits add
up.  A replacement begins at the level of the reference and stands on the same
values, so that of its levels and of its values only one is not new.
-/

namespace Rpn
namespace Expr

/-! ## One level of a replacement -/

variable (slot : UInt8) (replacement : Expr)

theorem replaceParam_self : (param slot).replaceParam slot replacement = replacement :=
  replace_of_some (if_pos rfl)

variable {slot} in
theorem node_children_replaceParam {expr : Expr} (other : expr.node ≠ .param slot) :
    (expr.replaceParam slot replacement).node = expr.node ∧
      (expr.replaceParam slot replacement).children =
        expr.children.map fun child => child.replaceParam slot replacement := by
  apply node_children_replace_of_none
  cases expr with
  | param found => exact if_neg fun same => other (congrArg Node.param same)
  | _ => rfl

variable {slot} in
theorem eq_param_of_node {expr : Expr} (found : expr.node = .param slot) :
    expr = .param slot := by
  cases expr <;> cases found
  rfl

/-! ## Nodes and measures -/

/-- The nodes of a tree with those of the replacement in the place of each
reference. -/
theorem postorder_replaceParam (expr : Expr) :
    (expr.replaceParam slot replacement).postorder =
      expr.postorder.flatMap fun node =>
        if node = .param slot then replacement.postorder else [node] := by
  induction expr using induct_children with
  | step expr inductionHypothesis =>
      by_cases found : expr.node = .param slot
      · rw [eq_param_of_node found, replaceParam_self]
        have single : (param slot).postorder = [.param slot] := rfl
        rw [single, List.flatMap_singleton, if_pos rfl]
      · rcases node_children_replaceParam replacement found with ⟨node, children⟩
        have below := List.flatMap_congr inductionHypothesis
        rw [postorder_eq, node, children, List.flatMap_map, below, postorder_eq expr,
          List.flatMap_append, List.flatMap_assoc, List.flatMap_singleton, if_neg found]

/-- Of the levels of the replacement only the first is not new. -/
theorem depth_replaceParam_lt (expr : Expr) :
    (expr.replaceParam slot replacement).depth < expr.depth + replacement.depth := by
  induction expr using induct_children with
  | step expr inductionHypothesis =>
      have positive := replacement.depth_pos
      by_cases found : expr.node = .param slot
      · rw [eq_param_of_node found, replaceParam_self]
        simp only [depth]
        omega
      · rcases node_children_replaceParam replacement found with ⟨_, children⟩
        have lowest := depthOfAll_le_iff.mp (Nat.le_refl (depthOfAll expr.children))
        have below : depthOfAll (expr.children.map fun child =>
            child.replaceParam slot replacement) ≤
              depthOfAll expr.children + replacement.depth - 1 := by
          apply depthOfAll_le_iff.mpr
          intro child member
          rcases List.mem_map.mp member with ⟨original, listed, rfl⟩
          have deeper := inductionHypothesis original listed
          have shallow := lowest original listed
          omega
        rw [depth_eq, children, depth_eq expr]
        omega

/-- Of the values that the replacement needs only one is not new. -/
theorem need_replaceParam_lt (expr : Expr) :
    (expr.replaceParam slot replacement).need < expr.need + replacement.need := by
  induction expr using induct_children with
  | step expr inductionHypothesis =>
      have positive := replacement.need_pos
      by_cases found : expr.node = .param slot
      · rw [eq_param_of_node found, replaceParam_self]
        simp only [need]
        omega
      · rcases node_children_replaceParam replacement found with ⟨_, children⟩
        have highest := needOfAll_le_iff.mp (Nat.le_refl (needOfAll expr.children))
        have above : needOfAll (expr.children.map fun child =>
            child.replaceParam slot replacement) ≤
              needOfAll expr.children + replacement.need - 1 := by
          apply needOfAll_le_iff.mpr
          intro place within
          have listed : place < expr.children.length := by
            rwa [List.length_map] at within
          have higher := inductionHypothesis _ (List.getElem_mem listed)
          have low := highest place listed
          rw [List.getElem_map]
          omega
        rw [need_eq, children, need_eq expr]
        omega

theorem Admitted.replaceParam {arities? : Option ArityTable} {expr replacement : Expr}
    (admitted : expr.Admitted arities?) (replacementAdmitted : replacement.Admitted arities?)
    (slot : UInt8) :
    (expr.replaceParam slot replacement).Admitted arities? := by
  intro node member
  rw [postorder_replaceParam, List.mem_flatMap] at member
  rcases member with ⟨original, listed, inside⟩
  split at inside
  · exact replacementAdmitted node inside
  · exact List.mem_singleton.mp inside ▸ admitted original listed

/-! ## Listings -/

theorem exists_disassemble_code {arities? : Option ArityTable} {expr : Expr}
    (admitted : expr.Admitted arities?) (framing : Framing) :
    Exists fun entries => disassemble (expr.code ++ framing.mark) = .ok entries ∧
      entries.map ListedInstruction.instruction =
        expr.postorder.map Node.instruction ++ framing.instructions := by
  have filled : ¬ (expr.code ++ framing.mark).isEmpty := by
    rw [List.isEmpty_iff]
    exact List.append_ne_nil_of_left_ne_nil (code_ne_nil admitted) _
  have whole := disassembleFrom_flatMap_code (fun node member => (admitted node member).1) 0
    framing.mark
  rcases exists_disassembleFrom_mark_instructions (0 + expr.code.length) framing with
    ⟨marks, listed, marked⟩
  refine ⟨Node.entries 0 expr.postorder ++ marks, ?_, ?_⟩
  · rw [disassemble, if_neg filled]
    exact whole.trans (congrArg _ listed)
  · rw [List.map_append, Node.map_instruction_entries, marked]

end Expr

/-- Instructions with others in the place of each reference to a parameter. -/
def Instruction.replaceParam (instructions : List Instruction) (slot : UInt8)
    (replacement : List Instruction) : List Instruction :=
  instructions.flatMap fun instruction =>
    if instruction = .param slot then replacement else [instruction]

theorem Node.instruction_eq_param_iff {node : Node} {slot : UInt8} :
    node.instruction = .param slot ↔ node = .param slot := by
  cases node <;> simp only [instruction, Instruction.param.injEq, param.injEq, reduceCtorEq]

theorem Instruction.replaceParam_map_instruction (nodes replacement : List Node) (slot : UInt8)
    (framing : Framing) :
    Instruction.replaceParam (nodes.map Node.instruction ++ framing.instructions) slot
        (replacement.map Node.instruction) =
      (nodes.flatMap fun node => if node = .param slot then replacement else [node]).map
        Node.instruction ++ framing.instructions := by
  have marks : framing.instructions.flatMap (fun instruction =>
      if instruction = .param slot then replacement.map Node.instruction else [instruction]) =
        framing.instructions := by
    cases framing with
    | terminated => rfl
    | unterminated => rfl
  rw [Instruction.replaceParam, List.flatMap_append, marks, List.flatMap_map, List.map_flatMap]
  congr 2
  funext node
  by_cases found : node = .param slot
  · rw [if_pos found, if_pos (Node.instruction_eq_param_iff.mpr found)]
  · rw [if_neg found, if_neg (Node.instruction_eq_param_iff.not.mpr found), List.map_singleton]

namespace Expr

/-- What is assembled from a tree after a replacement is listed as what is
assembled from it before, with the listing of the replacement in the place of
each reference.  Limits that add up, less one, are enough. -/
theorem assemble_replaceParam {arities? : Option ArityTable} {expr replacement : Expr}
    {before inner options : AssemblyOptions} {assembled replacementAssembled : Assembled}
    (done : expr.assemble before arities? = .ok assembled)
    (replacementDone : replacement.assemble inner arities? = .ok replacementAssembled)
    (unmarked : inner.framing = .unterminated) (framed : options.framing = before.framing)
    (room : assembled.peak + replacementAssembled.peak - 1 ≤ options.stackLimit)
    (shallow : expr.depth + replacement.depth - 1 ≤ options.nestingLimit) (slot : UInt8) :
    Exists fun result => Exists fun entries => Exists fun replacementEntries =>
      Exists fun resultEntries =>
        (expr.replaceParam slot replacement).assemble options arities? = .ok result ∧
          disassemble assembled.bytes = .ok entries ∧
          disassemble replacementAssembled.bytes = .ok replacementEntries ∧
          disassemble result.bytes = .ok resultEntries ∧
          resultEntries.map ListedInstruction.instruction =
            Instruction.replaceParam (entries.map ListedInstruction.instruction) slot
              (replacementEntries.map ListedInstruction.instruction) := by
  rcases assemble_eq_ok_iff.mp done with ⟨admitted, _, _, rfl⟩
  rcases assemble_eq_ok_iff.mp replacementDone with ⟨replacementAdmitted, _, _, rfl⟩
  have bothAdmitted : (expr.replaceParam slot replacement).Admitted arities? :=
    admitted.replaceParam replacementAdmitted slot
  have deeper := depth_replaceParam_lt slot replacement expr
  have higher := need_replaceParam_lt slot replacement expr
  have within : (expr.replaceParam slot replacement).depth ≤ max 1 options.nestingLimit := by
    omega
  have enough : (expr.replaceParam slot replacement).need ≤ options.stackLimit := by
    simp only at room
    omega
  rcases exists_disassemble_code admitted before.framing with ⟨entries, listed, instructions⟩
  rcases exists_disassemble_code replacementAdmitted inner.framing with
    ⟨replacementEntries, replacementListed, replacementInstructions⟩
  rcases exists_disassemble_code bothAdmitted options.framing with
    ⟨resultEntries, resultListed, resultInstructions⟩
  rw [unmarked] at replacementInstructions
  refine ⟨_, entries, replacementEntries, resultEntries,
    assemble_eq_ok_iff.mpr ⟨bothAdmitted, within, enough, rfl⟩, listed, replacementListed,
    resultListed, ?_⟩
  have replaced := Instruction.replaceParam_map_instruction expr.postorder replacement.postorder
    slot before.framing
  rw [resultInstructions, instructions, replacementInstructions, Framing.instructions,
    List.append_nil, replaced, postorder_replaceParam, framed]

/-- A function is called on its own identifier, and both are replaced by a
command that refers to the parameter again.  Two values and two levels meet two
of each, and three are needed. -/
theorem assemble_replaceParam_selfCall :
    (Expr.function (.param 1) [.param 1]).assemble ⟨.terminated, 2, 2⟩
        (some (.ofRows [(6, 12, 2)])) = .ok ⟨[0xB0, 0xB0, 0x85, 0xA1], 2⟩ ∧
      (Expr.command 6 12 [.param 1, .param 0]).assemble ⟨.unterminated, 2, 2⟩
        (some (.ofRows [(6, 12, 2)])) =
          .ok ⟨[0xB0, 0xAF, 0x8B, 0x06, 0x0C, 0x00, 0x00, 0x00], 2⟩ ∧
      Exists fun result => Exists fun entries => Exists fun replacementEntries =>
        Exists fun resultEntries =>
          ((Expr.function (.param 1) [.param 1]).replaceParam 1
              (.command 6 12 [.param 1, .param 0])).assemble ⟨.terminated, 3, 3⟩
            (some (.ofRows [(6, 12, 2)])) = .ok result ∧
          disassemble [0xB0, 0xB0, 0x85, 0xA1] = .ok entries ∧
          disassemble [0xB0, 0xAF, 0x8B, 0x06, 0x0C, 0x00, 0x00, 0x00] =
            .ok replacementEntries ∧
          disassemble result.bytes = .ok resultEntries ∧
          resultEntries.map ListedInstruction.instruction =
            Instruction.replaceParam (entries.map ListedInstruction.instruction) 1
              (replacementEntries.map ListedInstruction.instruction) := by
  have done : (Expr.function (.param 1) [.param 1]).assemble ⟨.terminated, 2, 2⟩
      (some (.ofRows [(6, 12, 2)])) = .ok ⟨[0xB0, 0xB0, 0x85, 0xA1], 2⟩ := by decide +kernel
  have replacementDone :
      (Expr.command 6 12 [.param 1, .param 0]).assemble ⟨.unterminated, 2, 2⟩
        (some (.ofRows [(6, 12, 2)])) =
          .ok ⟨[0xB0, 0xAF, 0x8B, 0x06, 0x0C, 0x00, 0x00, 0x00], 2⟩ := by decide +kernel
  have framed : (⟨.terminated, 3, 3⟩ : AssemblyOptions).framing = .terminated := rfl
  exact ⟨done, replacementDone,
    assemble_replaceParam done replacementDone rfl framed (by decide) (by decide) 1⟩

end Expr
end Rpn
