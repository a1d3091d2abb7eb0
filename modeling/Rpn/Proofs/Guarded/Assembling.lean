import Rpn.Proofs.Assembling
import Rpn.Proofs.Guarded.Operation

/-!
# Assembling under guards

Here what is written into a byte or a word is cut down to it, what an opcode
byte carries is added to it, and the levels of a tree and the heights of the
simulated stack are words.  Taking values off the simulated stack traps if there
are not so many.

The library assembles with numbers of any size, and its stack stays empty where
too much is taken.  The two agree on every tree that has fewer nodes than there
are words (`assemble_eq`).  A tree raises the stack by exactly one value, so
that the operands of a node are there when it is written; and neither levels nor
heights are more than the nodes.
-/

namespace Rpn
namespace Guarded

variable {Error : Type}

/-! ## One instruction -/

/-- The bytes of an instruction.  What is not listed is written without
arithmetic. -/
def code : Instruction -> Guarded EncodingError (List UInt8)
  | .push (.int value width) =>
    if width.Contains value then
      match width with
      | .inline => do
        let biased ← long (value + 64)
        let byte ← narrow 0 255 biased
        .ok [UInt8.ofNat byte.toNat]
      | .u16 => do
        let word ← narrow 0 65535 value
        .ok (Opcode.pushUInt16.toByte :: Word.bytes 2 word.toNat)
      | .i32 => do
        let word ← narrow (-2147483648) 2147483647 value
        .ok (Opcode.pushInt32.toByte :: Word.bytes 4 (word % 4294967296).toNat)
    else fail (.outOfRange value width)
  | .param slot =>
    if 8 ≤ slot.toNat then fail (.paramOutOfRange slot)
    else do
      let byte ← addByte (Opcode.param 0).toByte slot
      .ok [byte]
  | .call args =>
    if 6 < args then fail (.tooManyArguments args)
    else do
      let count ← narrow 0 255 args
      let byte ← addByte (Opcode.call 0).toByte (UInt8.ofNat count.toNat)
      .ok [byte]
  | instruction => lift instruction.encode

/-! ## The simulated stack -/

def put (assembler : Assembler) : Guarded Error Assembler := do
  let height ← addSize assembler.height 1
  .ok { assembler with height, peak := max assembler.peak height }

def take (assembler : Assembler) (count : Nat) : Guarded Error Assembler := do
  guard (count ≤ assembler.height) .saturated
  .ok (assembler.take count)

def account (assembler : Assembler) : Node -> Guarded Error Assembler
  | .const _ | .param _ => put assembler
  | .unary _ => .ok assembler
  | .binary _ => take assembler 1
  | .function args => take assembler args
  | .command _ _ args => do
    let assembler ← take assembler args
    put assembler

/-! ## A tree -/

def leave (assembler : Assembler) (node : Node) : Guarded AssemblyError Assembler := do
  let bytes ← rename .notEncodable (code node.instruction)
  account (assembler.write bytes) node

mutual

/-- Write a tree found at a level. -/
def write (rules : AssemblyRules) (level : Nat) : Expr -> Assembler ->
    Guarded AssemblyError Assembler
  | .const constant, assembler => do
    lift (rules.enter level (.const constant))
    leave assembler (.const constant)
  | .param slot, assembler => do
    lift (rules.enter level (.param slot))
    leave assembler (.param slot)
  | .unary op operand, assembler => do
    lift (rules.enter level (.unary op))
    let below ← addSize level 1
    let assembler ← write rules below operand assembler
    leave assembler (.unary op)
  | .binary op left right, assembler => do
    lift (rules.enter level (.binary op))
    let below ← addSize level 1
    let assembler ← write rules below left assembler
    let below ← addSize level 1
    let assembler ← write rules below right assembler
    leave assembler (.binary op)
  | .function id args, assembler => do
    lift (rules.enter level (.function args.length))
    let below ← addSize level 1
    let assembler ← write rules below id assembler
    let assembler ← writeAll rules level args assembler
    leave assembler (.function args.length)
  | .command bank id args, assembler => do
    lift (rules.enter level (.command bank id args.length))
    let assembler ← writeAll rules level args assembler
    leave assembler (.command bank id args.length)

/-- Write the children of a node at a level, first to last. -/
def writeAll (rules : AssemblyRules) (level : Nat) : List Expr -> Assembler ->
    Guarded AssemblyError Assembler
  | [], assembler => .ok assembler
  | expr :: rest, assembler => do
    let below ← addSize level 1
    let assembler ← write rules below expr assembler
    writeAll rules level rest assembler

end

def assemble (options : AssemblyOptions) (arities? : Option ArityTable) (expr : Expr) :
    Guarded AssemblyError Assembled := do
  let written ← write ⟨arities?, options.nestingLimit⟩ 1 expr .empty
  if options.stackLimit < written.peak then
    fail (.stackOverflow written.peak options.stackLimit)
  else
    let framed :=
      match options.framing with
      | .terminated => written.stop
      | .unterminated => written
    .ok ⟨framed.bytes.toList, written.peak⟩

/-! ## The guards of one node -/

/-- The bytes of an integer that its width contains. -/
theorem code_int {value : Int} {width : IntWidth} (inside : width.Contains value) :
    code (.push (.int value width)) = lift (Constant.int value width).encode := by
  simp only [code, Constant.encode, if_pos inside]
  rcases inside with ⟨low, high⟩
  cases width with
  | inline =>
      simp only [IntWidth.low, IntWidth.high] at low high
      have fits : -longLimit ≤ value + 64 ∧ value + 64 < longLimit := by
        rw [longLimit]
        omega
      have small : (value + 64).toNat < 128 := by
        omega
      rw [long_eq fits, ok_bind, narrow_eq ⟨by omega, by omega⟩, ok_bind]
      simp only [Opcode.toByte, Fin.ofNat, Nat.mod_eq_of_lt small]
      rfl
  | u16 =>
      simp only [IntWidth.low, IntWidth.high] at low high
      rw [narrow_eq ⟨low, high⟩]
      rfl
  | i32 =>
      simp only [IntWidth.low, IntWidth.high] at low high
      rw [narrow_eq ⟨low, high⟩]
      rfl

/-- An instruction is written alike: what it carries was checked before. -/
theorem code_eq (instruction : Instruction) : code instruction = lift instruction.encode := by
  cases instruction with
  | push constant =>
      cases constant with
      | int value width =>
          by_cases inside : width.Contains value
          · exact code_int inside
          · simp only [code, Instruction.encode, Constant.encode, if_neg inside]
            rfl
      | _ => rfl
  | param slot =>
      by_cases known : slot.toNat < 8
      · have first : (Opcode.param 0).toByte.toNat = 0xAF := rfl
        have fits : (Opcode.param 0).toByte.toNat + slot.toNat < 256 := by
          omega
        have sum : (Opcode.param 0).toByte + slot = (Opcode.param ⟨slot.toNat, known⟩).toByte := by
          rw [← UInt8.toNat_inj, UInt8.toNat_add, first, Opcode.toByte, UInt8.toNat_ofNat']
        rw [code, if_neg (Nat.not_le_of_lt known), addByte_eq fits, sum]
        simp only [Instruction.encode, dif_pos known]
        rfl
      · simp only [code, Instruction.encode, if_pos (Nat.le_of_not_lt known), dif_neg known]
        rfl
  | call args =>
      by_cases few : args < 7
      · have first : (Opcode.call 0).toByte.toNat = 0x84 := rfl
        have count : (UInt8.ofNat (args : Int).toNat).toNat = args := by
          rw [Int.toNat_natCast, UInt8.toNat_ofNat']
          omega
        have fits : (Opcode.call 0).toByte.toNat + (UInt8.ofNat (args : Int).toNat).toNat < 256 := by
          omega
        have sum : (Opcode.call 0).toByte + UInt8.ofNat (args : Int).toNat =
            (Opcode.call ⟨args, few⟩).toByte := by
          rw [← UInt8.toNat_inj, UInt8.toNat_add, first, count, Opcode.toByte,
            UInt8.toNat_ofNat']
        rw [code, if_neg (by omega), narrow_eq ⟨by omega, by omega⟩, ok_bind, addByte_eq fits, sum]
        simp only [Instruction.encode, dif_pos few]
        rfl
      · have many : 6 < args := by
          omega
        simp only [code, Instruction.encode, if_pos many, dif_neg few]
        rfl
  | _ => rfl

theorem put_eq {assembler : Assembler} (room : assembler.height + 1 < sizeLimit) :
    (put assembler : Guarded Error Assembler) = .ok assembler.put := by
  rw [put, addSize_eq room]
  rfl

theorem take_eq {assembler : Assembler} {count : Nat} (enough : count ≤ assembler.height) :
    (take assembler count : Guarded Error Assembler) = .ok (assembler.take count) := by
  rw [take, guard, if_pos enough]
  rfl

/-- With the operands of a node on the simulated stack, nothing saturates. -/
theorem account_eq {assembler : Assembler} {node : Node} (enough : node.arity ≤ assembler.height)
    (room : assembler.height + 1 < sizeLimit) :
    (account assembler node : Guarded Error Assembler) = .ok (assembler.account node) := by
  cases node with
  | const constant => exact put_eq room
  | param slot => exact put_eq room
  | unary op => rfl
  | binary op => exact take_eq (Nat.le_of_succ_le enough)
  | function args => exact take_eq (Nat.le_of_succ_le enough)
  | command bank id args =>
      have lower : (assembler.take args).height + 1 < sizeLimit :=
        Nat.lt_of_le_of_lt (Nat.succ_le_succ (Nat.sub_le _ _)) room
      have there : args ≤ assembler.height := enough
      rw [account, take_eq there, ok_bind, put_eq lower]
      rfl

theorem leave_eq {assembler : Assembler} {node : Node} (enough : node.arity ≤ assembler.height)
    (room : assembler.height + 1 < sizeLimit) :
    leave assembler node = lift (assembler.leave node) := by
  rw [leave, code_eq, rename_lift, Assembler.leave_eq]
  cases node.instruction.encode with
  | error error => rfl
  | ok bytes =>
      have accounted := @account_eq AssemblyError (assembler.write bytes) node enough room
      exact accounted

/-! ## The guards of a tree -/

theorem write_eq (rules : AssemblyRules) (level : Nat) (expr : Expr) (assembler : Assembler) :
    write rules level expr assembler = (do
      lift (rules.enter level expr.node)
      let assembler ← writeAll rules level expr.children assembler
      leave assembler expr.node) := by
  have last : forall assembler : Assembler,
      writeAll rules level [] assembler = pure assembler := fun _ => rfl
  have first : forall expr rest (assembler : Assembler),
      writeAll rules level (expr :: rest) assembler =
        (do
          let below ← addSize level 1
          let following ← write rules below expr assembler
          writeAll rules level rest following) :=
    fun _ _ _ => rfl
  cases expr with
  | const constant => simp only [write, Expr.node, Expr.children, last, pure_bind]
  | param slot => simp only [write, Expr.node, Expr.children, last, pure_bind]
  | unary op operand =>
      simp only [write, Expr.node, Expr.children, first, last, bind_assoc, pure_bind]
  | binary op left right =>
      simp only [write, Expr.node, Expr.children, first, last, bind_assoc, pure_bind]
  | function id args => simp only [write, Expr.node, Expr.children, first, bind_assoc]
  | command bank id args => simp only [write, Expr.node, Expr.children]

/-- The statement about writing a tree, for the children of a node in turn. -/
private theorem writeAll_agrees_of_mem {rules : AssemblyRules} {level : Nat} {forest : List Expr}
    (each : forall expr, expr ∈ forest -> forall assembler : Assembler,
      level + 1 + expr.nodeCount ≤ sizeLimit ->
      assembler.height + expr.nodeCount < sizeLimit -> assembler.height ≤ assembler.peak ->
      write rules (level + 1) expr assembler = lift (expr.write rules (level + 1) assembler))
    {assembler : Assembler} (levels : level + 1 + Expr.nodeCountOfAll forest ≤ sizeLimit)
    (heights : assembler.height + Expr.nodeCountOfAll forest < sizeLimit)
    (bounded : assembler.height ≤ assembler.peak) :
    writeAll rules level forest assembler =
      lift (Expr.writeAll rules (level + 1) forest assembler) := by
  induction forest generalizing assembler with
  | nil => rfl
  | cons expr rest inductionHypothesis =>
      have parts := List.forall_mem_cons.mp each
      have positive : 0 < expr.nodeCount := by
        rw [expr.nodeCount_eq]
        exact Nat.succ_pos _
      rw [Expr.nodeCountOfAll] at levels heights
      rw [writeAll, Expr.writeAll, addSize_eq (by omega), ok_bind,
        parts.1 assembler (by omega) (by omega) bounded]
      refine bind_lift fun following written => ?_
      -- The tree just written has left one value, and it has at least one node.
      rcases (Expr.write_eq_ok_iff bounded).mp written with ⟨_, _, rfl⟩
      have needed := expr.need_pos
      refine inductionHypothesis parts.2 (by omega) ?_ ?_
      · simp only [Assembler.extend]
        omega
      · simp only [Assembler.extend]
        omega

/-- A tree is written alike.  Each level below the root and each value on the
simulated stack has a node of its own. -/
theorem write_agrees {rules : AssemblyRules} {level : Nat} {expr : Expr} {assembler : Assembler}
    (levels : level + expr.nodeCount ≤ sizeLimit)
    (heights : assembler.height + expr.nodeCount < sizeLimit)
    (bounded : assembler.height ≤ assembler.peak) :
    write rules level expr assembler = lift (expr.write rules level assembler) := by
  induction expr using Expr.induct_children generalizing level assembler with
  | step expr inductionHypothesis =>
      rw [expr.nodeCount_eq] at levels heights
      have children : writeAll rules level expr.children assembler =
          lift (Expr.writeAll rules (level + 1) expr.children assembler) :=
        writeAll_agrees_of_mem (fun child member _ => inductionHypothesis child member)
          (by omega) (by omega) bounded
      have few : expr.children.length ≤ Expr.nodeCountOfAll expr.children :=
        Nat.le_trans (Expr.length_le_needOfAll _) (Expr.needOfAll_le_nodeCountOfAll _)
      rw [write_eq, Expr.write_eq]
      refine bind_lift fun _ _ => ?_
      rw [children]
      refine bind_lift fun following written => ?_
      -- The children have left one value each, which are the operands of the node.
      rcases (Expr.writeAll_eq_ok_iff bounded).mp written with ⟨_, _, rfl⟩
      have operands := expr.length_children
      refine leave_eq ?_ ?_
      · simp only [Assembler.extend]
        omega
      · simp only [Assembler.extend]
        omega

theorem assemble_eq {options : AssemblyOptions} {arities? : Option ArityTable} {expr : Expr}
    (few : expr.nodeCount < sizeLimit) :
    assemble options arities? expr = lift (expr.assemble options arities?) := by
  have levels : 1 + expr.nodeCount ≤ sizeLimit := by
    omega
  have heights : Assembler.empty.height + expr.nodeCount < sizeLimit := by
    simp only [Assembler.empty]
    omega
  rw [assemble, Expr.assemble, write_agrees levels heights (Nat.le_refl _)]
  refine bind_lift fun written _ => ?_
  by_cases full : options.stackLimit < written.peak
  · rw [if_pos full, if_pos full]
    rfl
  · rw [if_neg full, if_neg full]
    rfl

end Guarded
end Rpn
