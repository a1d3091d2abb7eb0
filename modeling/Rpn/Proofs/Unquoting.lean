import Rpn.Text.Quoted

/-!
# Reading quoted text

Quoted text is read one character at a time by a machine that remembers where
in an escape it stands.  Main statement: the inside of a quoted text, its
closing quote and anything behind that are read as the content and what stood
behind (`unquote?_body`).
-/

namespace Rpn
namespace Quoted

def hexValue (char : Char) : Nat :=
  ((List.range 16).find? fun value => value.digitChar == char).getD 0

/-- The character of a short escape, by the letter after the backslash. -/
def unescape (letter : Char) : Char :=
  if letter = '0' then '\x00'
  else if letter = 't' then '\t'
  else if letter = 'r' then '\r'
  else if letter = 'n' then '\n'
  else letter

/-- Where in an escape a reading stands. -/
inductive Place
  | plain
  /-- Behind a backslash. -/
  | escaped
  /-- Before the brace of a code point. -/
  | marked
  /-- Within the digits of a code point. -/
  | coded (value : Nat)

def prepend (char : Char) (reading : Option (List Char × List Char)) :
    Option (List Char × List Char) :=
  reading.map fun (content, rest) => (char :: content, rest)

/-- The content up to the closing quote, and what stands behind the quote. -/
def unquote? : Place -> List Char -> Option (List Char × List Char)
  | _, [] => none
  | .plain, char :: rest =>
    if char = '"' then some ([], rest)
    else if char = '\\' then unquote? .escaped rest
    else prepend char (unquote? .plain rest)
  | .escaped, letter :: rest =>
    if letter = 'u' then unquote? .marked rest
    else prepend (unescape letter) (unquote? .plain rest)
  | .marked, _ :: rest => unquote? (.coded 0) rest
  | .coded value, char :: rest =>
    if char = '\x7d' then prepend (Char.ofNat value) (unquote? .plain rest)
    else unquote? (.coded (16 * value + hexValue char)) rest

private theorem unquote?_digit {value digit : Nat} (small : digit < 16) (rest : List Char) :
    unquote? (.coded value) (digit.digitChar :: rest) =
      unquote? (.coded (16 * value + digit)) rest := by
  have noBrace : forall digit, digit < 16 -> digit.digitChar ≠ '\x7d' := by decide
  have same : forall digit, digit < 16 -> hexValue digit.digitChar = digit := by decide
  rw [unquote?, if_neg (noBrace digit small), same digit small]

theorem unquote?_toDigits (value : Nat) (rest : List Char) :
    unquote? (.coded 0) (Nat.toDigits 16 value ++ rest) = unquote? (.coded value) rest := by
  induction value using Nat.strongRecOn generalizing rest with
  | ind value inductionHypothesis =>
      by_cases small : value < 16
      · rw [Nat.toDigits_of_lt_base small, List.singleton_append, unquote?_digit small]
        simp only [Nat.mul_zero, Nat.zero_add]
      · have large : 16 ≤ value := Nat.le_of_not_lt small
        rw [Nat.toDigits_of_base_le (by decide) large, List.append_assoc, List.singleton_append,
          inductionHypothesis (value / 16) (by omega), unquote?_digit (by omega),
          Nat.div_add_mod]

theorem unquote?_escape (char : Char) (rest : List Char) :
    unquote? .plain (escape '"' char ++ rest) = prepend char (unquote? .plain rest) := by
  by_cases named : char ∈ ['\x00', '\t', '\r', '\n', '\\', '"']
  · simp only [List.mem_cons, List.not_mem_nil, or_false] at named
    rcases named with rfl | rfl | rfl | rfl | rfl | rfl
    all_goals rfl
  · simp only [List.mem_cons, List.not_mem_nil, or_false, not_or] at named
    rcases named with ⟨noNull, noTab, noReturn, noLineFeed, noBackslash, noQuote⟩
    simp only [escape, if_neg noNull, if_neg noTab, if_neg noReturn, if_neg noLineFeed,
      if_neg noBackslash, if_neg noQuote]
    split
    · show unquote? (.coded 0) (Nat.toDigits 16 char.toNat ++ ['\x7d'] ++ rest) = _
      rw [List.append_assoc, unquote?_toDigits]
      simp only [List.singleton_append, unquote?, if_true, Char.ofNat_toNat]
    · simp only [List.singleton_append, unquote?, if_neg noQuote, if_neg noBackslash]

theorem unquote?_body (content rest : List Char) :
    unquote? .plain (body content ++ '"' :: rest) = some (content, rest) := by
  induction content with
  | nil => rfl
  | cons char content inductionHypothesis =>
      rw [body, List.flatMap_cons, List.append_assoc, unquote?_escape, ← body,
        inductionHypothesis]
      rfl

end Quoted
end Rpn
