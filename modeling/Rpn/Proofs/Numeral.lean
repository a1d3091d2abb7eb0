import Rpn.Token

/-!
# The text of numbers

Numbers stand in infix text as literals and inside names.  This module says
which characters they are made of, and reads them back.  A literal of a float
without its sign is a `DecimalText`: it begins with a digit or is a word, and
some character in it is no digit, so it is never the literal of an integer.
-/

namespace Rpn

/-! ## Integers -/

/-- Whether a run of accepted characters would end before the text. -/
def Halts (accepts : Char -> Bool) (rest : List Char) : Prop :=
  forall char, rest.head? = some char -> accepts char = false

theorem takeWhile_of_halts {accepts : Char -> Bool} {text rest : List Char}
    (every : forall char, char ∈ text -> accepts char) (halts : Halts accepts rest) :
    (text ++ rest).takeWhile accepts = text ∧ (text ++ rest).dropWhile accepts = rest := by
  rw [List.takeWhile_append_of_pos every, List.dropWhile_append_of_pos every]
  cases rest with
  | nil => exact ⟨List.append_nil text, rfl⟩
  | cons first others =>
      have refused := halts first rfl
      rw [List.takeWhile_cons, List.dropWhile_cons, refused]
      exact ⟨List.append_nil text, rfl⟩

def readNat (text : List Char) : Nat × List Char :=
  (Nat.ofDigitChars 10 (text.takeWhile Char.isDigit) 0, text.dropWhile Char.isDigit)

/-- The number with or without a minus sign at the front of a text, and the
rest. -/
def readInt : List Char -> Int × List Char
  | [] => (0, [])
  | first :: others =>
    if first = '-' then (-(readNat others).1, (readNat others).2)
    else ((readNat (first :: others)).1, (readNat (first :: others)).2)

theorem isDigit_of_mem_toDigits {value : Nat} {char : Char}
    (member : char ∈ Nat.toDigits 10 value) : char.isDigit :=
  Nat.isDigit_of_mem_toDigits (by decide) (by decide) member

theorem readNat_toDigits (value : Nat) {rest : List Char} (halts : Halts Char.isDigit rest) :
    readNat (Nat.toDigits 10 value ++ rest) = (value, rest) := by
  rcases takeWhile_of_halts (fun _ => isDigit_of_mem_toDigits) halts with ⟨taken, left⟩
  rw [readNat, taken, left, Nat.ofDigitChars_ten_toDigits]

theorem toList_toString_int (value : Int) :
    (toString value).toList =
      if value < 0 then '-' :: Nat.toDigits 10 value.natAbs
      else Nat.toDigits 10 value.natAbs := by
  rw [Int.toString_eq_repr, Int.repr_eq_if]
  by_cases negative : value < 0
  · have magnitude : (-value).toNat = value.natAbs := by omega
    rw [if_neg (by omega), if_pos negative, String.toList_append, Nat.toList_repr, magnitude]
    rfl
  · have magnitude : value.toNat = value.natAbs := by omega
    rw [if_pos (by omega), if_neg negative, Nat.toList_repr, magnitude]

theorem readInt_toString (value : Int) {rest : List Char} (halts : Halts Char.isDigit rest) :
    readInt ((toString value).toList ++ rest) = (value, rest) := by
  rw [toList_toString_int]
  split
  · rename_i negative
    simp only [List.cons_append, readInt, if_true, readNat_toDigits _ halts, Prod.mk.injEq, and_true]
    omega
  · rename_i positive
    cases shape : Nat.toDigits 10 value.natAbs with
    | nil => exact absurd shape Nat.toDigits_ne_nil
    | cons first others =>
        have digit : first.isDigit := isDigit_of_mem_toDigits (shape ▸ List.mem_cons_self)
        have noSign : first ≠ '-' := by
          rintro rfl
          cases digit
        simp only [List.cons_append, readInt, if_neg noSign]
        rw [← List.cons_append, ← shape, readNat_toDigits _ halts]
        simp only [Prod.mk.injEq, and_true]
        omega

/-! ## Floats -/

/-- The characters of number literals: digits, the point, and the letters of
`inf` and `NaN`. -/
def isNumeral (char : Char) : Bool :=
  char.isDigit || ['.', 'i', 'n', 'f', 'N', 'a'].contains char

def startsNumber (char : Char) : Bool :=
  char.isDigit || ['i', 'N'].contains char

def isDecimalText (chars : List Char) : Bool :=
  chars.head?.all startsNumber && chars.all isNumeral && !chars.all Char.isDigit

/-- The literal of a float without its sign. -/
structure DecimalText where
  chars : List Char
  shaped : isDecimalText chars
  deriving DecidableEq

theorem isNumeral_of_isDigit {char : Char} (digit : char.isDigit) : isNumeral char := by
  rw [isNumeral, digit, Bool.true_or]

theorem isNumeral_of_mem_toDigits {value : Nat} {char : Char}
    (member : char ∈ Nat.toDigits 10 value) : isNumeral char :=
  isNumeral_of_isDigit (isDigit_of_mem_toDigits member)

/-- Digits with a point after the first one make up a decimal text. -/
theorem isDecimalText_of_pointed {first : Char} {whole fraction : List Char}
    (starts : first.isDigit) (left : forall char, char ∈ whole -> char.isDigit)
    (right : forall char, char ∈ fraction -> char.isDigit) :
    isDecimalText (first :: whole ++ '.' :: fraction) := by
  have numeral : forall char, char ∈ first :: whole ++ '.' :: fraction -> isNumeral char := by
    intro char member
    rcases List.mem_append.mp member with before | after
    · rcases List.mem_cons.mp before with rfl | before
      · exact isNumeral_of_isDigit starts
      · exact isNumeral_of_isDigit (left char before)
    · rcases List.mem_cons.mp after with rfl | after
      · rfl
      · exact isNumeral_of_isDigit (right char after)
  have point : (first :: whole ++ '.' :: fraction).all Char.isDigit = false := by
    rw [List.all_append, List.all_cons]
    exact Bool.and_false _
  rw [isDecimalText, List.all_eq_true.mpr numeral, point]
  simp only [List.cons_append, List.head?_cons, Option.all_some, startsNumber, starts,
    Bool.true_or, Bool.true_and, Bool.not_false]

theorem isDecimalText_positionalText (value : Nat) (exponent : Int) :
    isDecimalText (DecimalLayout.positionalText (Nat.toDigits 10 value) exponent) := by
  have digits : forall char, char ∈ Nat.toDigits 10 value -> char.isDigit :=
    fun _ => isDigit_of_mem_toDigits
  have zeros : forall (count : Nat) (char : Char), char ∈ List.replicate count '0' ->
      char.isDigit := by
    intro count char member
    rw [List.eq_of_mem_replicate member]
    rfl
  simp only [DecimalLayout.positionalText]
  cases shape : Nat.toDigits 10 value with
  | nil => exact absurd shape Nat.toDigits_ne_nil
  | cons first others =>
      rw [shape] at digits
      rcases List.forall_mem_cons.mp digits with ⟨firstDigit, otherDigits⟩
      split
      · apply isDecimalText_of_pointed firstDigit
        · exact List.forall_mem_append.mpr ⟨otherDigits, zeros _⟩
        · exact List.forall_mem_singleton.mpr rfl
      · split
        · rename_i inside
          cases place : (exponent + (first :: others).length).toNat with
          | zero => omega
          | succ place =>
              apply isDecimalText_of_pointed firstDigit
              · exact fun char member => otherDigits char (List.mem_of_mem_take member)
              · exact fun char member => digits char (List.mem_of_mem_drop member)
        · apply @isDecimalText_of_pointed '0' [] _ rfl nofun
          exact List.forall_mem_append.mpr ⟨zeros _, digits⟩

namespace FloatValue

def magnitudeChars (format : FloatFormat) : FloatValue -> List Char
  | nan => ['N', 'a', 'N']
  | infinite _ => ['i', 'n', 'f']
  | finite _ mantissa exponent =>
    DecimalLayout.expression.text (Decimal.ofFinite format mantissa exponent)

def magnitude (format : FloatFormat) (value : FloatValue) : DecimalText where
  chars := value.magnitudeChars format
  shaped := by
    cases value with
    | nan => rfl
    | infinite negative => rfl
    | finite negative mantissa exponent => exact isDecimalText_positionalText _ _

/-- The text of a float is its magnitude, behind a minus sign if it counts as
negative. -/
theorem toList_text (format : FloatFormat) (value : FloatValue) :
    (value.text .expression format).toList =
      if value.isNegative then '-' :: (value.magnitude format).chars
      else (value.magnitude format).chars := by
  cases value with
  | nan => exact show "NaN".toList = ['N', 'a', 'N'] by decide
  | infinite negative => exact String.toList_ofList
  | finite negative mantissa exponent => exact String.toList_ofList

end FloatValue
end Rpn
