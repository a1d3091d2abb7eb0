/-!
# Framing

An expression may end with an end-marker or with the last byte of its buffer.
The marker is not part of the tree, so the framing is kept beside it.
-/

namespace Rpn

/-- How the end of an expression is marked. -/
inductive Framing
  | unterminated
  /-- The end-marker follows the last instruction. -/
  | terminated
  deriving DecidableEq

namespace Framing

/-- The lower-case name of the framing. -/
def name : Framing -> String
  | unterminated => "unterminated"
  | terminated => "terminated"

/-- The name of the framing in log messages. -/
def title : Framing -> String
  | unterminated => "Unterminated"
  | terminated => "Terminated"

end Framing
end Rpn
