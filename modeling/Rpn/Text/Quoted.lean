import Rpn.Text.Extender
import Rpn.Text.Hex
import Rpn.Text.Unprintable

/-!
# Quoted text

Text is quoted so that its end can be seen and every character in it can be
told: the quote and the backslash are escaped, common controls have short
escapes, and a character that cannot be seen is written by its code point.  A
text has one quoted form, and the first unescaped quote in it is the last
character.
-/

namespace Rpn
namespace Quoted

/-- The escape of a character by its code point. -/
def codePoint (char : Char) : List Char :=
  '\\' :: 'u' :: '\x7b' :: (Nat.toDigits 16 char.toNat ++ ['\x7d'])

/-- Whether a character cannot be seen as itself.  Characters of ASCII are
decided without a search. -/
def isHidden (char : Char) : Bool :=
  if char.toNat < 0x7F then char.toNat < 0x20
  else if Extender.isExtender char then !Extender.isSoundMark char
  else Unprintable.isUnprintable char || Unprintable.isFiller char

/-- The form of a character within quotes of the kind `quote`. -/
def escape (quote char : Char) : List Char :=
  if char = '\x00' then ['\\', '0']
  else if char = '\t' then ['\\', 't']
  else if char = '\r' then ['\\', 'r']
  else if char = '\n' then ['\\', 'n']
  else if char = '\\' then ['\\', '\\']
  else if char = quote then ['\\', quote]
  else if isHidden char then codePoint char
  else [char]

/-- The inside of a text in double quotes. -/
def body (text : List Char) : List Char :=
  text.flatMap (escape '"')

/-- A text in double quotes.  An apostrophe is left as it is. -/
def text (content : String) : String :=
  String.ofList ('"' :: (body content.toList ++ ['"']))

/-- A character in apostrophes.  A double quote is left as it is. -/
def char (content : Char) : String :=
  String.ofList ('\'' :: (escape '\'' content ++ ['\'']))

end Quoted
end Rpn
