/-!
# Log messages

What the library reports while it works, as values: a level and a text.  The
messages of a run are a list in the order in which they arise.
-/

namespace Rpn

/-- How detailed a message is. -/
inductive LogLevel
  | debug | trace
  deriving DecidableEq

namespace LogLevel

/-- The name of the level in a log. -/
def name : LogLevel -> String
  | debug => "DEBUG"
  | trace => "TRACE"

end LogLevel

/-- One message. -/
structure LogMessage where
  level : LogLevel
  text : String
  deriving DecidableEq

end Rpn
