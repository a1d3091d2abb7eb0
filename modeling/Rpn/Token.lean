import Rpn.Decimal.Layout
import Rpn.Expr
import Rpn.Naming
import Rpn.Text.Quoted

/-!
# Tokens of infix text

Infix text is a sequence of tokens: literals, names, signs, brackets, commas
and the blanks between them.  A negative literal is one token, its minus sign
included; the sign of an operator is a token of its own.
-/

namespace Rpn
namespace Constant

/-- The literal text of a constant.  It shows neither the width of an integer
nor the size of a float. -/
def literal : Constant -> String
  | int value _ => toString value
  | float32 bits => (FloatFormat.single.value bits.toNat).text .expression .single
  | float64 bits => (FloatFormat.double.value bits.toNat).text .expression .double
  | string text => Quoted.text text

end Constant

/-- One token. -/
inductive Token
  | literal (constant : Constant)
  | param (slot : UInt8)
  /-- The name of a function with a constant identifier. -/
  | function (id : Int)
  /-- The letter before the bracketed identifier of any other function. -/
  | computedFunction
  | command (bank : UInt8) (id : Int32)
  | sign (mark : Sign)
  | openParen
  | closeParen
  | openBracket
  | closeBracket
  | comma
  | blank
  deriving DecidableEq

namespace Token

/-- The characters of a token under a naming. -/
def text (naming : Naming) : Token -> String
  | literal constant => constant.literal
  | param slot => naming.param slot
  | function id => naming.function id
  | computedFunction => "f"
  | command bank id => naming.command bank id
  | sign mark => mark.text
  | openParen => "("
  | closeParen => ")"
  | openBracket => "["
  | closeBracket => "]"
  | comma => ","
  | blank => " "

end Token
end Rpn
