import Rpn.Constant
import Rpn.Operator

/-!
# Instructions

One step of the stack machine: push a value, combine the values on top, or
end the expression.  An instruction says what was stored, not what fits: a
parameter slot or an argument count may lie outside the wire format, and then
it has no encoding.
-/

namespace Rpn

/-- One instruction. -/
inductive Instruction
  | push (constant : Constant)
  | param (slot : UInt8)
  | unary (op : UnaryOp)
  | binary (op : BinaryOp)
  /-- Call a function whose identifier lies beneath its arguments. -/
  | call (args : Nat)
  /-- Call a command.  The wire format does not hold its argument count. -/
  | command (bank : UInt8) (id : Int32)
  /-- The end-marker. -/
  | stop
  deriving DecidableEq

namespace Instruction

/-- Whether the instruction puts a value on the stack and takes none. -/
def isPush : Instruction -> Bool
  | push _ | param _ => true
  | _ => false

end Instruction
end Rpn
