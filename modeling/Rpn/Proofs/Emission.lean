import Rpn.Assembly

/-!
# What a step does to an assembler

A step is written bit by bit.  Main statement: it comes to the bytes that the
wire format has for its instruction and to one change of the simulated stack,
or it is refused for the reason that the wire format gives and has then done
nothing (`Emission.run_node`).  The latter is due to the order of the bits: the
check comes before anything is written.
-/

namespace Rpn
namespace Assembler

/-- The change of the simulated stack by a node. -/
def account (assembler : Assembler) : Node -> Assembler
  | .const _ | .param _ => assembler.put
  | .unary _ => assembler
  | .binary _ => assembler.take 1
  | .function args => assembler.take args
  | .command _ _ args => (assembler.take args).put

theorem write_write (assembler : Assembler) (first second : List UInt8) :
    (assembler.write first).write second = assembler.write (first ++ second) := by
  have joined : assembler.bytes ++ first ++ second = assembler.bytes ++ (first ++ second) := by
    apply Array.toList_inj.mp
    simp only [Array.toList_appendList, List.append_assoc]
  simp only [write, joined]

theorem write_nil (assembler : Assembler) : assembler.write [] = assembler := by
  have same : assembler.bytes ++ ([] : List UInt8) = assembler.bytes := by
    apply Array.toList_inj.mp
    rw [Array.toList_appendList, List.append_nil]
  simp only [write, same]

namespace Emission

/-- A check that comes first decides whether anything is done. -/
theorem run_require_bind (condition : Prop) [Decidable condition] (error : EncodingError)
    (rest : Emission Unit) (assembler : Assembler) :
    (do require condition error; rest : Emission Unit).run.run assembler =
      if condition then rest.run.run assembler else (.error error, assembler) := by
  by_cases holds : condition
  · rw [require, if_pos holds, if_pos holds]
    rfl
  · rw [require, if_neg holds, if_neg holds]
    rfl

theorem run_write_bind (bytes : List UInt8) (rest : Emission Unit) (assembler : Assembler) :
    (do write bytes; rest : Emission Unit).run.run assembler =
      rest.run.run (assembler.write bytes) :=
  rfl

theorem run_forM_bind {Item : Type} (code : Item -> List UInt8) (items : List Item)
    (rest : Emission Unit) (assembler : Assembler) :
    (do items.forM fun item => write (code item); rest : Emission Unit).run.run assembler =
      rest.run.run (assembler.write (items.flatMap code)) := by
  induction items generalizing assembler with
  | nil =>
      rw [List.flatMap_nil, write_nil]
      rfl
  | cons item items inductionHypothesis =>
      rw [List.flatMap_cons, ← write_write, ← inductionHypothesis]
      rfl

theorem run_word (opcode : UInt8) (word : List UInt8) (assembler : Assembler) :
    (do write [opcode]; write word; put : Emission Unit).run.run assembler =
      (.ok (), (assembler.write (opcode :: word)).put) := by
  rw [run_write_bind, run_write_bind, write_write]
  rfl

theorem run_push (constant : Constant) (assembler : Assembler) :
    (push constant).run.run assembler =
      match constant.encode with
      | .error error => (.error error, assembler)
      | .ok bytes => (.ok (), (assembler.write bytes).put) := by
  cases constant with
  | int value width =>
      rw [push, run_require_bind]
      by_cases inside : width.Contains value
      · simp only [Constant.encode, if_pos inside]
        cases width with
        | inline =>
            rcases inside with ⟨low, high⟩
            simp only [IntWidth.low, IntWidth.high] at low high
            have small : (value + 64).toNat < 128 := by
              omega
            simp only [Opcode.toByte, Fin.ofNat, Nat.mod_eq_of_lt small]
            rfl
        | u16 => exact run_word _ _ _
        | i32 => exact run_word _ _ _
      · simp only [Constant.encode, if_neg inside]
  | float32 bits => exact run_word _ _ _
  | float64 bits => exact run_word _ _ _
  | string text =>
      rw [push, run_require_bind]
      by_cases terminated : text.toList.contains '\x00'
      · simp only [Constant.encode, if_pos terminated, if_neg (not_not_intro terminated)]
      · simp only [Constant.encode, if_neg terminated, if_pos terminated]
        rw [run_write_bind, run_forM_bind, run_write_bind, write_write, write_write]
        rfl

theorem run_node (node : Node) (assembler : Assembler) :
    (Emission.node node).run.run assembler =
      match node.instruction.encode with
      | .error error => (.error error, assembler)
      | .ok bytes => (.ok (), (assembler.write bytes).account node) := by
  cases node with
  | const constant => exact run_push constant assembler
  | param slot =>
      rw [Emission.node, run_require_bind]
      by_cases known : slot.toNat < 8
      · simp only [Node.instruction, Instruction.encode, if_pos known, dif_pos known]
        rfl
      · simp only [Node.instruction, Instruction.encode, if_neg known, dif_neg known]
  | unary op => rfl
  | binary op => rfl
  | function args =>
      rw [Emission.node, run_require_bind]
      by_cases few : args < 7
      · simp only [Node.instruction, Instruction.encode, if_pos few, dif_pos few]
        rfl
      · simp only [Node.instruction, Instruction.encode, if_neg few, dif_neg few]
  | command bank id args =>
      rw [Emission.node, run_write_bind, run_write_bind, run_write_bind, write_write, write_write]
      rfl

end Emission

theorem attempt_node (assembler : Assembler) (node : Node) :
    assembler.attempt (.node node) =
      match node.instruction.encode with
      | .error error => (some error, assembler)
      | .ok bytes => (none, (assembler.write bytes).account node) := by
  rw [attempt, Step.emission, Emission.run_node]
  cases node.instruction.encode with
  | error error => rfl
  | ok bytes => rfl

theorem leave_eq (assembler : Assembler) (node : Node) :
    assembler.leave node =
      match node.instruction.encode with
      | .error error => .error (.notEncodable error)
      | .ok bytes => .ok ((assembler.write bytes).account node) := by
  rw [leave, attempt_node]
  cases node.instruction.encode with
  | error error => rfl
  | ok bytes => rfl

end Assembler
end Rpn
