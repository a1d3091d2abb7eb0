/-!
# Blank characters

The White_Space property of Unicode, which is wider than the class of blanks
in ASCII: it holds the no-break space, the ideographic space and the line and
paragraph separators as well.
-/

namespace Rpn
namespace Blank

/-- The code points with the property White_Space, as inclusive ranges. -/
def ranges : List (Nat × Nat) :=
  [(0x9, 0xD), (0x20, 0x20), (0x85, 0x85), (0xA0, 0xA0), (0x1680, 0x1680), (0x2000, 0x200A),
   (0x2028, 0x2029), (0x202F, 0x202F), (0x205F, 0x205F), (0x3000, 0x3000)]

/-- Whether a character is blank. -/
def isBlank (char : Char) : Bool :=
  ranges.any (fun range => decide (range.1 ≤ char.toNat ∧ char.toNat ≤ range.2))

end Blank
end Rpn
