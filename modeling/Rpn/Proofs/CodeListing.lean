import Rpn.Proofs.Listing

/-!
# The listing of assembled code

The code of a tree is the code of its nodes one after another, so reading it
finds the nodes again.  A node is found wherever its code stands in a buffer:
reading it takes exactly its own bytes, and the listing goes on behind them
(`disassembleFrom_flatMap_code`).

Main statement: the listing of an assembled tree has one entry for each node,
in post-order, and one more for the end-marker if there is one
(`disassemble_of_assemble`).
-/

namespace Rpn

/-- The entries of nodes whose code stands one after another from an offset
on. -/
def Node.entries : Nat -> List Node -> List ListedInstruction
  | _, [] => []
  | offset, node :: rest =>
    ⟨offset, node.code.length, node.instruction⟩ ::
      Node.entries (offset + node.code.length) rest

theorem Node.map_instruction_entries (offset : Nat) (nodes : List Node) :
    (Node.entries offset nodes).map ListedInstruction.instruction =
      nodes.map Node.instruction := by
  induction nodes generalizing offset with
  | nil => rfl
  | cons node rest inductionHypothesis =>
      simp only [Node.entries, List.map_cons, inductionHypothesis]

/-- The listing of the code of nodes in front of any bytes has their entries
first. -/
theorem disassembleFrom_flatMap_code {nodes : List Node}
    (encodable : forall node, node ∈ nodes -> node.Encodable) (offset : Nat)
    (rest : List UInt8) :
    disassembleFrom offset (nodes.flatMap Node.code ++ rest) =
      (disassembleFrom (offset + (nodes.flatMap Node.code).length) rest).map
        (Node.entries offset nodes ++ ·) := by
  induction nodes generalizing offset with
  | nil =>
      rw [List.flatMap_nil, List.nil_append, List.length_nil, Nat.add_zero]
      cases disassembleFrom offset rest with
      | error error => rfl
      | ok entries => rfl
  | cons node others inductionHypothesis =>
      have parts := List.forall_mem_cons.mp encodable
      have read := Node.read_code_append parts.1 (others.flatMap Node.code ++ rest)
      rw [List.flatMap_cons, List.append_assoc,
        disassembleFrom_of_read read node.instruction_ne_stop, inductionHypothesis parts.2,
        List.length_append, Nat.add_assoc]
      cases disassembleFrom (offset + (node.code.length + (others.flatMap Node.code).length))
          rest with
      | error error => rfl
      | ok entries => rfl

/-- The instructions that mark the end of an expression. -/
def Framing.instructions : Framing -> List Instruction
  | .terminated => [.stop]
  | .unterminated => []

theorem exists_disassembleFrom_mark_instructions (offset : Nat) (framing : Framing) :
    Exists fun entries => disassembleFrom offset framing.mark = .ok entries ∧
      entries.map ListedInstruction.instruction = framing.instructions := by
  cases framing with
  | unterminated => exact ⟨[], disassembleFrom_nil offset, rfl⟩
  | terminated =>
      exact ⟨_, disassembleFrom_of_stop (Decompiler.read_mark_append []) rfl, rfl⟩

/-- An assembled tree is listed as its nodes with every child before its
parent, one instruction each, and the end-marker behind them if there is one.
Post-order is that of the children, so the identifier of a function comes
before its arguments. -/
theorem disassemble_of_assemble {options : AssemblyOptions} {arities? : Option ArityTable}
    {expr : Expr} {assembled : Assembled}
    (done : expr.assemble options arities? = .ok assembled) :
    (Exists fun entries => disassemble assembled.bytes = .ok entries ∧
      entries.map ListedInstruction.instruction =
        expr.postorder.map Node.instruction ++ options.framing.instructions ∧
      entries.length =
        expr.nodeCount + if options.framing = .terminated then 1 else 0) ∧
    forall part : Expr, part.postorder = part.children.flatMap Expr.postorder ++ [part.node] := by
  rcases Expr.assemble_eq_ok_iff.mp done with ⟨admitted, _, _, rfl⟩
  refine ⟨?_, Expr.postorder_eq⟩
  have filled : ¬ (expr.code ++ options.framing.mark).isEmpty := by
    rw [List.isEmpty_iff]
    exact List.append_ne_nil_of_left_ne_nil (Expr.code_ne_nil admitted) _
  rcases exists_disassembleFrom_mark_instructions (0 + expr.code.length) options.framing with
    ⟨marks, listed, marked⟩
  have instructions : (Node.entries 0 expr.postorder ++ marks).map ListedInstruction.instruction =
      expr.postorder.map Node.instruction ++ options.framing.instructions := by
    rw [List.map_append, Node.map_instruction_entries, marked]
  refine ⟨Node.entries 0 expr.postorder ++ marks, ?_, instructions, ?_⟩
  · have whole := disassembleFrom_flatMap_code (fun node member => (admitted node member).1) 0
      options.framing.mark
    rw [disassemble, if_neg filled]
    exact whole.trans (congrArg _ listed)
  · have count := congrArg List.length instructions
    simp only [List.length_map, List.length_append, Expr.length_postorder] at count
    rw [List.length_append, count]
    cases options.framing <;> rfl

/-- The identifier of the function and its argument stand between the string
and the call, and the command comes last. -/
theorem disassemble_of_assemble_surrogateCall :
    surrogateCall.assemble ⟨.terminated, 3, 3⟩ none = .ok ⟨surrogateCallBytes, 3⟩ ∧
      Exists fun entries => disassemble surrogateCallBytes = .ok entries ∧
        entries.map ListedInstruction.instruction =
          [.push (.string "é𝄞"), .push (.int (-1) .inline), .param 7, .call 1, .command 6 12,
            .stop] ∧
        entries.length = 6 := by
  have done : surrogateCall.assemble ⟨.terminated, 3, 3⟩ none = .ok ⟨surrogateCallBytes, 3⟩ := by
    decide +kernel
  exact ⟨done, (disassemble_of_assemble done).1⟩

end Rpn
