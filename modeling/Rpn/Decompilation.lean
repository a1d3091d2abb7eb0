import Rpn.ArityTable
import Rpn.Disassembly
import Rpn.Expr.Infix
import Rpn.Framing
import Rpn.Log

/-!
# Decompilation

A buffer is executed on a stack of trees: an instruction takes the operands of
its node off the stack and puts the tree of the node there.  The buffer must
leave exactly one tree.

Every operand carries the depth of its tree, so the nesting limit is checked
without walking the tree.  The checks of one instruction come in a fixed order:
the bytes, the table of commands, the operands, the nesting of the new tree,
and room on the stack.  What is wrong is reported at the offset of the
instruction, and nothing after it is looked at.
-/

namespace Rpn

/-- Limits of a decompilation. -/
structure DecompileOptions where
  stackLimit : Nat := 256
  nestingLimit : Nat := 512
  requireTerminator : Bool := false

/-- Why a buffer is not decompiled. -/
inductive DecompileError
  | malformed (error : StreamError)
  | stackUnderflow (offset : Nat) (opcode : UInt8) (needed available : Nat)
  | unknownCommand (offset : Nat) (bank : UInt8) (id : Int32)
  | stackOverflow (offset limit : Nat)
  | nestingTooDeep (offset limit : Nat)
  /-- The trees left on the stack are not one, bottom first. -/
  | unbalanced (stack : List Expr)
  deriving DecidableEq

namespace DecompileError

/-- The error in words. -/
def message : DecompileError -> String
  | malformed error => error.message
  | stackUnderflow offset opcode needed available =>
    "stack underflow at offset " ++ Hex.offset offset ++ ": opcode " ++ Hex.opcode opcode ++
      s!" needs {needed} operands but {available} are available"
  | unknownCommand offset bank id =>
    s!"no argument count for command {bank}:{id} at offset " ++ Hex.offset offset
  | stackOverflow offset limit =>
    "stack overflow at offset " ++ Hex.offset offset ++ s!": more than {limit} values"
  | nestingTooDeep offset limit =>
    "expression at offset " ++ Hex.offset offset ++ s!" nests deeper than {limit}"
  | unbalanced stack => s!"unbalanced expression: {stack.length} values remain on the stack"

/-- The offset of the instruction at fault, if one is. -/
def offset? : DecompileError -> Option Nat
  | malformed error => some error.offset
  | stackUnderflow offset _ _ _ => some offset
  | unknownCommand offset _ _ => some offset
  | stackOverflow offset _ => some offset
  | nestingTooDeep offset _ => some offset
  | unbalanced _ => none

end DecompileError

/-- A tree and what is needed to assemble the same bytes from it. -/
structure Decompiled where
  expr : Expr
  framing : Framing
  peak : Nat
  deriving DecidableEq

namespace Decompiler

/-- A tree on the stack and its depth. -/
structure Operand where
  expr : Expr
  depth : Nat

/-- Where an execution stands.  The stack has its top first, and the trace the
instruction read last. -/
structure State where
  rest : List UInt8
  offset : Nat := 0
  stack : List Operand := []
  peak : Nat := 0
  trace : List ListedInstruction := []

/-- The node that an instruction evaluates.  The end-marker evaluates none. -/
def nodeOf (arities : ArityTable) (offset : Nat) : Instruction ->
    Except DecompileError (Option Node)
  | .push constant => .ok (some (.const constant))
  | .param slot => .ok (some (.param slot))
  | .unary op => .ok (some (.unary op))
  | .binary op => .ok (some (.binary op))
  | .call args => .ok (some (.function args))
  | .command bank id =>
    match arities bank id with
    | none => .error (.unknownCommand offset bank id)
    | some args => .ok (some (.command bank id args))
  | .stop => .ok none

/-- The depth of a tree over children of these depths.  A leaf is never too
deep, whatever the limit. -/
def nest (options : DecompileOptions) (offset : Nat) (depths : List Nat) :
    Except DecompileError Nat :=
  match depths with
  | [] => .ok 1
  | first :: others =>
    let depth := others.foldl max first + 1
    if options.nestingLimit < depth then
      .error (.nestingTooDeep offset options.nestingLimit)
    else .ok depth

/-- Evaluate a node on the stack.  An operand is missing exactly when the tree
cannot be built from what is there. -/
def evaluate (options : DecompileOptions) (offset : Nat) (opcode : UInt8) (node : Node)
    (stack : List Operand) : Except DecompileError (List Operand) :=
  let operands := (stack.take node.arity).reverse
  let left := stack.drop node.arity
  match node.build? (operands.map Operand.expr) with
  | none => .error (.stackUnderflow offset opcode node.arity stack.length)
  | some expr => do
    let depth ← nest options offset (operands.map Operand.depth)
    if left.length < options.stackLimit then .ok (⟨expr, depth⟩ :: left)
    else .error (.stackOverflow offset options.stackLimit)

/-- What one turn of an execution leads to. -/
inductive Turn
  | next (state : State)
  | finished (state : State) (framing : Framing)
  | failed (state : State) (error : DecompileError)

namespace State

/-- Before the first instruction. -/
def start (bytes : List UInt8) : State :=
  { rest := bytes }

/-- Read one instruction and execute it.  An instruction that was read is
traced even when it fails. -/
def turn (arities : ArityTable) (options : DecompileOptions) (state : State) : Turn :=
  match state.rest with
  | [] => .finished state .unterminated
  | opcode :: operand =>
    match Instruction.read (opcode :: operand) with
    | .error fault => .failed state (.malformed ⟨state.offset, fault⟩)
    | .ok reading =>
      let entry : ListedInstruction := ⟨state.offset, reading.length, reading.instruction⟩
      let traced := { state with
        rest := reading.rest
        offset := state.offset + reading.length
        trace := entry :: state.trace }
      match nodeOf arities state.offset reading.instruction with
      | .error error => .failed traced error
      | .ok none => .finished traced .terminated
      | .ok (some node) =>
        match evaluate options state.offset opcode node state.stack with
        | .error error => .failed traced error
        | .ok stack =>
          .next { traced with
            stack
            peak := max state.peak stack.length }

/-- Every turn that has a next one shortens what is left to read. -/
theorem rest_lt_of_turn {arities : ArityTable} {options : DecompileOptions}
    {state following : State} (turned : state.turn arities options = .next following) :
    following.rest.length < state.rest.length := by
  unfold turn at turned
  split at turned
  · cases turned
  · rename_i opcode operand shape
    split at turned
    · cases turned
    · rename_i reading found
      simp only at turned
      split at turned
      · cases turned
      · cases turned
      · split at turned
        · cases turned
        · cases turned
          rw [shape]
          exact Instruction.rest_lt_of_read found

/-- Execute up to the end-marker, the last byte or the first error.  The last
state is given with either outcome. -/
def run (arities : ArityTable) (options : DecompileOptions) (state : State) :
    State × Except DecompileError Framing :=
  match _turned : state.turn arities options with
  | .next following => run arities options following
  | .finished final framing => (final, .ok framing)
  | .failed final error => (final, .error error)
termination_by state.rest.length
decreasing_by exact rest_lt_of_turn _turned

/-- Judge the state in which an execution ended: nothing may follow the
end-marker, the marker may be required, and one tree must be left. -/
def conclude (options : DecompileOptions) (final : State) (framing : Framing) :
    Except DecompileError Decompiled :=
  if framing = .terminated ∧ final.rest ≠ [] then
    .error (.malformed ⟨final.offset, .trailingBytes final.rest.length⟩)
  else if framing = .unterminated ∧ options.requireTerminator then
    .error (.malformed ⟨final.offset, .missingTerminator⟩)
  else
    match final.stack with
    | [operand] => .ok ⟨operand.expr, framing, final.peak⟩
    | stack => .error (.unbalanced (stack.reverse.map Operand.expr))

end State

/-- The instructions that were read, in order, and what came of them. -/
structure Run where
  trace : List ListedInstruction
  outcome : Except DecompileError Decompiled

/-- Execute a buffer. -/
def run (arities : ArityTable) (options : DecompileOptions) (bytes : List UInt8) : Run :=
  if bytes.isEmpty then ⟨[], .error (.malformed ⟨0, .empty⟩)⟩
  else
    match (State.start bytes).run arities options with
    | (final, .error error) => ⟨final.trace.reverse, .error error⟩
    | (final, .ok framing) => ⟨final.trace.reverse, final.conclude options framing⟩

/-- The message of an instruction that was read. -/
def traceMessage (entry : ListedInstruction) : LogMessage :=
  ⟨.trace, Hex.paddedOffset entry.offset ++ " " ++ entry.instruction.text⟩

/-- The message of an execution that reached the end of its buffer, if a tree
or several are left to speak of. -/
def conclusionMessage? (length : Nat) : Except DecompileError Decompiled -> Option LogMessage
  | .ok decompiled =>
    some ⟨.debug, s!"Decoded {length} bytes as " ++ decompiled.framing.title ++ " expression " ++
      decompiled.expr.defaultText⟩
  | .error (.unbalanced stack) =>
    some ⟨.debug, s!"Decode left {stack.length} values on the stack for {length} bytes"⟩
  | .error _ => none

/-- The messages of an execution of `length` bytes. -/
def Run.log (execution : Run) (length : Nat) : List LogMessage :=
  execution.trace.map traceMessage ++ (conclusionMessage? length execution.outcome).toList

end Decompiler

/-- The tree of a buffer. -/
def decompile (arities : ArityTable) (options : DecompileOptions) (bytes : List UInt8) :
    Except DecompileError Decompiled :=
  (Decompiler.run arities options bytes).outcome

/-- The tree of each buffer, under the default limits.  No buffer hides
another. -/
def decompileAll (arities : ArityTable) (buffers : List (List UInt8)) :
    List (Except DecompileError Expr) :=
  buffers.map fun bytes => (decompile arities {} bytes).map Decompiled.expr

end Rpn
