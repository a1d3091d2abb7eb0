import Rpn.Text.Utf16

/-!
# Tokens of JSON text

JSON text is cut into tokens: punctuation, names, numbers and strings.  Only
the four blanks of the grammar separate tokens.

A string is kept as 16-bit units, because an escape may stand for half a
character.  Whether the units are text is asked only where the string is used.
Of a number only an integer is kept as such; minus zero is none, nor is a
number with a fraction or an exponent.
-/

namespace Rpn

/-- One token. -/
inductive JsonToken
  | openBrace
  | closeBrace
  | openBracket
  | closeBracket
  | colon
  | comma
  | null
  | boolean (value : Bool)
  | integer (value : Int)
  /-- A number that is no integer. -/
  | real
  | string (units : List UInt16)

namespace JsonToken

/-- The blanks of the grammar. -/
def isBlank (char : Char) : Bool :=
  char == ' ' || char == '\t' || char == '\n' || char == '\r'

/-- The value of a hexadecimal digit. -/
def hexDigit? (char : Char) : Option Nat :=
  if '0' ≤ char ∧ char ≤ '9' then some (char.toNat - 48)
  else if 'A' ≤ char ∧ char ≤ 'F' then some (char.toNat - 55)
  else if 'a' ≤ char ∧ char ≤ 'f' then some (char.toNat - 87)
  else none

/-- The unit of the four digits of an escape. -/
def escapedUnit? (d3 d2 d1 d0 : Char) : Option UInt16 :=
  match hexDigit? d3, hexDigit? d2, hexDigit? d1, hexDigit? d0 with
  | some v3, some v2, some v1, some v0 =>
    some (UInt16.ofNat (4096 * v3 + 256 * v2 + 16 * v1 + v0))
  | _, _, _, _ => none

/-- The character of an escape with one letter. -/
def escapedChar? : Char -> Option Char
  | '"' => some '"'
  | '\\' => some '\\'
  | '/' => some '/'
  | 'b' => some '\x08'
  | 'f' => some '\x0c'
  | 'n' => some '\n'
  | 'r' => some '\r'
  | 't' => some '\t'
  | _ => none

/-- Scan the rest of a string, its opening quote and the units of `done` lying
behind.  The units of `done` have the last one first.  Controls must be
escaped. -/
def scanString (done : List UInt16) : List Char -> Option (List UInt16 × List Char)
  | [] => none
  | '"' :: rest => some (done.reverse, rest)
  | '\\' :: 'u' :: d3 :: d2 :: d1 :: d0 :: rest =>
    match escapedUnit? d3 d2 d1 d0 with
    | some unit => scanString (unit :: done) rest
    | none => none
  | '\\' :: letter :: rest =>
    match escapedChar? letter with
    | some char => scanString ((Utf16.units char).reverse ++ done) rest
    | none => none
  | char :: rest =>
    if char.toNat < 0x20 then none
    else scanString ((Utf16.units char).reverse ++ done) rest

/-- The digits at the front, at least one. -/
def scanDigits? (input : List Char) : Option (List Char × List Char) :=
  let digits := input.takeWhile Char.isDigit
  if digits.isEmpty then none else some (digits, input.drop digits.length)

/-- The fraction of a number, if it has one: the answer says whether. -/
def scanFraction? : List Char -> Option (Bool × List Char)
  | '.' :: rest => (scanDigits? rest).map fun scanned => (true, scanned.2)
  | input => some (false, input)

/-- The exponent of a number, if it has one: the answer says whether. -/
def scanExponent? : List Char -> Option (Bool × List Char)
  | 'e' :: rest | 'E' :: rest =>
    let unsigned :=
      match rest with
      | '+' :: digits | '-' :: digits => digits
      | _ => rest
    (scanDigits? unsigned).map fun scanned => (true, scanned.2)
  | input => some (false, input)

/-- A number without its sign.  A leading zero stands alone. -/
def scanNumber? (negative : Bool) (input : List Char) : Option (JsonToken × List Char) := do
  let (digits, rest) ← scanDigits? input
  if digits.head? = some '0' ∧ digits.length ≠ 1 then none
  else
    let (fraction, rest) ← scanFraction? rest
    let (exponent, rest) ← scanExponent? rest
    let magnitude : Nat := digits.foldl (fun value digit => 10 * value + (digit.toNat - 48)) 0
    let token :=
      if fraction || exponent || (negative && magnitude == 0) then real
      else integer (if negative then -(magnitude : Int) else magnitude)
    some (token, rest)

/-- The rest of a text that begins with a name. -/
def afterName? : List Char -> List Char -> Option (List Char)
  | [], rest => some rest
  | expected :: name, char :: rest => if char = expected then afterName? name rest else none
  | _ :: _, [] => none

/-- Scan one token at the front of a text that does not begin with a blank. -/
def scan? : List Char -> Option (JsonToken × List Char)
  | [] => none
  | '\x7b' :: rest => some (openBrace, rest)
  | '\x7d' :: rest => some (closeBrace, rest)
  | '[' :: rest => some (openBracket, rest)
  | ']' :: rest => some (closeBracket, rest)
  | ':' :: rest => some (colon, rest)
  | ',' :: rest => some (comma, rest)
  | 'n' :: rest => (afterName? "ull".toList rest).map fun rest => (null, rest)
  | 't' :: rest => (afterName? "rue".toList rest).map fun rest => (boolean true, rest)
  | 'f' :: rest => (afterName? "alse".toList rest).map fun rest => (boolean false, rest)
  | '"' :: rest => (scanString [] rest).map fun scanned => (string scanned.1, scanned.2)
  | '-' :: rest => scanNumber? true rest
  | input => scanNumber? false input

/-- Cut a text into tokens, at most `fuel` of them. -/
def tokensWithin : Nat -> List Char -> Option (List JsonToken)
  | 0, input => if (input.dropWhile isBlank).isEmpty then some [] else none
  | fuel + 1, input =>
    match input.dropWhile isBlank with
    | [] => some []
    | visible =>
      match scan? visible with
      | none => none
      | some (token, rest) => (tokensWithin fuel rest).map fun tokens => token :: tokens

/-- Cut a text into tokens.  A token has at least one character, so there are
no more tokens than characters. -/
def tokens? (text : String) : Option (List JsonToken) :=
  tokensWithin text.length text.toList

end JsonToken
end Rpn
