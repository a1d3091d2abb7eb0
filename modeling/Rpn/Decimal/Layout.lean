import Rpn.Decimal.Shortest

/-!
# The text of a float

The digits of a float are laid out in positional form, `0.0015`, or with an
exponent, `1.5e-3`.  Positional text always has a point and at least one digit
on each side of it.  A layout says which values are written in which form; two
layouts are used, one for expressions and one for listings.
-/

namespace Rpn

/-- The choice between positional and scientific text, by the power of ten of
the leading digit. -/
structure DecimalLayout where
  positional : Int -> Bool

namespace DecimalLayout

/-- Expressions never show an exponent. -/
def expression : DecimalLayout :=
  ⟨fun _ => true⟩

/-- Listings are positional from a ten-thousandth up to, and not including,
ten to the sixteenth. -/
def listing : DecimalLayout :=
  ⟨fun leading => decide (-4 ≤ leading ∧ leading < 16)⟩

/-- Digits with the point placed for the exponent. -/
def positionalText (digits : List Char) (exponent : Int) : List Char :=
  let zeros (count : Int) := List.replicate count.toNat '0'
  let whole := exponent + digits.length
  if 0 ≤ exponent then digits ++ zeros exponent ++ ['.', '0']
  else if 0 < whole then digits.take whole.toNat ++ '.' :: digits.drop whole.toNat
  else '0' :: '.' :: (zeros (-whole) ++ digits)

/-- One digit before the point, and no point when no digit follows it. -/
def scientificText (digits : List Char) (leading : Int) : List Char :=
  let exponent := 'e' :: (toString leading).toList
  match digits with
  | [] => exponent
  | [digit] => digit :: exponent
  | digit :: rest => digit :: '.' :: (rest ++ exponent)

/-- The text of a decimal without sign. -/
def text (layout : DecimalLayout) (decimal : Decimal) : List Char :=
  let digits := Nat.toDigits 10 decimal.digits
  let leading := decimal.exponent + digits.length - 1
  if layout.positional leading then positionalText digits decimal.exponent
  else scientificText digits leading

end DecimalLayout

namespace FloatValue

/-- The text of a float.  A minus sign stands exactly before the values that
count as negative. -/
def text (layout : DecimalLayout) (format : FloatFormat) : FloatValue -> String
  | nan => "NaN"
  | infinite negative => signed negative "inf".toList
  | finite negative mantissa exponent =>
    signed negative (layout.text (Decimal.ofFinite format mantissa exponent))
where
  /-- A magnitude with its sign. -/
  signed (negative : Bool) (magnitude : List Char) : String :=
    String.ofList (if negative then '-' :: magnitude else magnitude)

end FloatValue
end Rpn
