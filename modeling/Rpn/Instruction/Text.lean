import Rpn.Decimal.Layout
import Rpn.Instruction
import Rpn.Text.Quoted

/-!
# Listing text

The form in which one instruction is shown in a listing: its mnemonic and what
it carries.  Integers show the width they are stored at, floats are written in
the listing layout and strings are quoted.
-/

namespace Rpn
namespace Constant

/-- The push of a constant in a listing. -/
def listingText : Constant -> String
  | int value .inline => s!"PUSH_INLINE {value}"
  | int value .u16 => s!"PUSH_U16 {value}"
  | int value .i32 => s!"PUSH_I32 {value}"
  | float32 bits =>
    "PUSH_F32 " ++ (FloatFormat.single.value bits.toNat).text .listing .single
  | float64 bits =>
    "PUSH_F64 " ++ (FloatFormat.double.value bits.toNat).text .listing .double
  | string text => "PUSH_STRING " ++ Quoted.text text

end Constant

namespace Instruction

/-- The instruction in a listing. -/
def text : Instruction -> String
  | push constant => constant.listingText
  | param slot => s!"GET_REG {slot}"
  | unary op => op.mnemonic
  | binary op => op.mnemonic
  | call args => s!"CALL {args}"
  | command bank id => s!"CALL_COMMAND {bank}:{id}"
  | stop => "END"

end Instruction
end Rpn
