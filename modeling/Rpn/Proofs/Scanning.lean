import Rpn.Proofs.Numeral
import Rpn.Proofs.Outline
import Rpn.Proofs.Unquoting

/-!
# Scanning infix text

The characters of a lexeme do not say by themselves where the lexeme ends: a
number may go on, and `<` may be half of `<=`.  `Apart` says what must not
follow a lexeme.  Main statement: two lists of lexemes that keep this rule and
are written alike are equal (`eq_of_spelling_eq`).
-/

namespace Rpn

/-- A literal without a sign. -/
inductive Literal
  | natural (value : Nat)
  | decimal (text : DecimalText)
  | string (content : String)
  deriving DecidableEq

/-- No literal of text begins with a sign. -/
def Literal.signed (_ : Literal) : Bool :=
  false

def Literal.chars : Literal -> List Char
  | natural value => Nat.toDigits 10 value
  | decimal text => text.chars
  | string content => (Quoted.text content).toList

def Callee.chars : Callee -> List Char
  | function id => (Naming.default.function id).toList
  | command bank id => (Naming.default.command bank id).toList

namespace Lexeme

def chars : Lexeme Literal -> List Char
  | literal value => value.chars
  | param slot => (Naming.default.param slot).toList
  | name callee => callee.chars
  | computed => ['f']
  | sign mark => mark.text.toList
  | openParen => ['(']
  | closeParen => [')']
  | openBracket => ['[']
  | closeBracket => [']']
  | comma => [',']
  | blank => [' ']

def spelling (lexemes : List (Lexeme Literal)) : List Char :=
  lexemes.flatMap chars

/-! ## The scanner -/

def scanNumber? (text : List Char) : Option (Lexeme Literal × List Char) :=
  let numeral := text.takeWhile isNumeral
  let rest := text.dropWhile isNumeral
  if numeral.all Char.isDigit then
    some (.literal (.natural (Nat.ofDigitChars 10 numeral 0)), rest)
  else if shaped : isDecimalText numeral then some (.literal (.decimal ⟨numeral, shaped⟩), rest)
  else none

/-- The lexeme at the front of a text that begins with no number. -/
def scanMark? : Char -> List Char -> Option (Lexeme Literal × List Char)
  | '"', rest =>
    (Quoted.unquote? .plain rest).map fun (content, after) =>
      (.literal (.string (String.ofList content)), after)
  | 'p', rest => some (.param (UInt8.ofNat (readNat rest).1), (readNat rest).2)
  | 'f', rest =>
    if rest.head? = some '[' then some (.computed, rest)
    else some (.name (.function (readInt rest).1), (readInt rest).2)
  | 'c', rest =>
    match readNat rest with
    | (bank, '_' :: after) =>
      some (.name (.command (UInt8.ofNat bank) (Int32.ofInt (readInt after).1)), (readInt after).2)
    | _ => none
  | '*', rest => some (.sign .star, rest)
  | '/', rest => some (.sign .slash, rest)
  | '+', rest => some (.sign .plus, rest)
  | '-', rest => some (.sign .minus, rest)
  | '<', rest => if rest.head? = some '=' then some (.sign .le, rest.tail) else some (.sign .lt, rest)
  | '>', rest => if rest.head? = some '=' then some (.sign .ge, rest.tail) else some (.sign .gt, rest)
  | '!', rest => if rest.head? = some '=' then some (.sign .ne, rest.tail) else some (.sign .bang, rest)
  | '=', rest => some (.sign .eq, rest.tail)
  | '&', rest => some (.sign .and, rest.tail)
  | '|', rest => some (.sign .or, rest.tail)
  | '(', rest => some (.openParen, rest)
  | ')', rest => some (.closeParen, rest)
  | '[', rest => some (.openBracket, rest)
  | ']', rest => some (.closeBracket, rest)
  | ',', rest => some (.comma, rest)
  | ' ', rest => some (.blank, rest)
  | _, _ => none

/-- The lexeme at the front of a text, and the rest. -/
def scan? : List Char -> Option (Lexeme Literal × List Char)
  | [] => none
  | first :: rest =>
    if startsNumber first then scanNumber? (first :: rest) else scanMark? first rest

/-- Whether the lexeme ends before the text. -/
def Apart : Lexeme Literal -> List Char -> Prop
  | literal (.natural _), rest => Halts isNumeral rest
  | literal (.decimal _), rest => Halts isNumeral rest
  | param _, rest => Halts Char.isDigit rest
  | name _, rest => Halts Char.isDigit rest
  | computed, rest => rest.head? = some '['
  | sign .lt, rest => rest.head? ≠ some '='
  | sign .gt, rest => rest.head? ≠ some '='
  | sign .bang, rest => rest.head? ≠ some '='
  | _, _ => True

private theorem scan?_number {first : Char} {others : List Char} (starts : startsNumber first)
    (rest : List Char) : scan? (first :: others ++ rest) = scanNumber? (first :: others ++ rest) :=
  if_pos starts

private theorem scan?_natural (value : Nat) {rest : List Char} (apart : Halts isNumeral rest) :
    scan? (Nat.toDigits 10 value ++ rest) = some (.literal (.natural value), rest) := by
  have read := @Nat.ofDigitChars_ten_toDigits value
  have digits := fun char => @isDigit_of_mem_toDigits value char
  have numerals := fun char => @isNumeral_of_mem_toDigits value char
  cases shape : Nat.toDigits 10 value with
  | nil => exact absurd shape Nat.toDigits_ne_nil
  | cons first others =>
      rw [shape] at read digits numerals
      have starts : startsNumber first := by
        rw [startsNumber, digits first List.mem_cons_self, Bool.true_or]
      rcases takeWhile_of_halts numerals apart with ⟨taken, left⟩
      rw [scan?_number starts]
      simp only [scanNumber?, taken, left, if_pos (List.all_eq_true.mpr digits), read]

private theorem scan?_decimal (text : DecimalText) {rest : List Char}
    (apart : Halts isNumeral rest) :
    scan? (text.chars ++ rest) = some (.literal (.decimal text), rest) := by
  rcases text with ⟨chars, shaped⟩
  have parts := shaped
  simp only [isDecimalText, Bool.and_eq_true, Bool.not_eq_true'] at parts
  rcases parts with ⟨⟨starts, numeral⟩, pointed⟩
  cases chars with
  | nil => cases pointed
  | cons first others =>
      rcases takeWhile_of_halts (List.all_eq_true.mp numeral) apart with ⟨taken, left⟩
      have noDigits : ¬ (first :: others).all Char.isDigit := Bool.eq_false_iff.mp pointed
      rw [scan?_number starts]
      simp only [scanNumber?, taken, left, if_neg noDigits, dif_pos shaped]

theorem toList_param (slot : UInt8) :
    (Naming.default.param slot).toList = 'p' :: Nat.toDigits 10 slot.toNat := by
  show (toString "p" ++ toString slot).toList = _
  rw [String.toList_append]
  exact congrArg _ Nat.toList_repr

theorem toList_function (id : Int) :
    (Naming.default.function id).toList = 'f' :: (toString id).toList := by
  show (toString "f" ++ toString id).toList = _
  rw [String.toList_append]
  rfl

theorem toList_command (bank : UInt8) (id : Int32) :
    (Naming.default.command bank id).toList =
      'c' :: (Nat.toDigits 10 bank.toNat ++ '_' :: (toString id.toInt).toList) := by
  show (toString "c" ++ toString bank ++ toString "_" ++ toString id).toList = _
  have digits : (toString bank).toList = Nat.toDigits 10 bank.toNat := Nat.toList_repr
  simp only [String.toList_append, digits, List.append_assoc]
  rfl

private theorem scan?_function (id : Int) {rest : List Char} (apart : Halts Char.isDigit rest) :
    scan? ((Callee.function id).chars ++ rest) = some (.name (.function id), rest) := by
  have noBracket : ¬ ((toString id).toList ++ rest).head? = some '[' := by
    rw [toList_toString_int]
    split
    · nofun
    · cases shape : Nat.toDigits 10 id.natAbs with
      | nil => exact absurd shape Nat.toDigits_ne_nil
      | cons first others =>
          have digit : first.isDigit := isDigit_of_mem_toDigits (shape ▸ List.mem_cons_self)
          intro bracket
          cases bracket
          cases digit
  rw [Callee.chars, toList_function, List.cons_append]
  show (if _ = some '[' then _ else _) = _
  rw [if_neg noBracket, readInt_toString id apart]

private theorem scan?_command (bank : UInt8) (id : Int32) {rest : List Char}
    (apart : Halts Char.isDigit rest) :
    scan? ((Callee.command bank id).chars ++ rest) = some (.name (.command bank id), rest) := by
  have under : Halts Char.isDigit ('_' :: ((toString id.toInt).toList ++ rest)) := by
    intro char first
    cases first
    rfl
  have read := readNat_toDigits bank.toNat under
  rw [Callee.chars, toList_command, List.cons_append, List.append_assoc, List.cons_append]
  show scanMark? 'c' _ = _
  simp only [scanMark?, read, readInt_toString id.toInt apart, UInt8.ofNat_toNat,
    Int32.ofInt_toInt]

theorem scan?_chars_append {lexeme : Lexeme Literal} {rest : List Char}
    (apart : Apart lexeme rest) : scan? (lexeme.chars ++ rest) = some (lexeme, rest) := by
  cases lexeme with
  | literal value =>
      cases value with
      | natural value => exact scan?_natural value apart
      | decimal text => exact scan?_decimal text apart
      | string content =>
          have read := Quoted.unquote?_body content.toList rest
          show scan? ((Quoted.text content).toList ++ rest) = _
          rw [Quoted.text, String.toList_ofList, List.cons_append, List.append_assoc,
            List.singleton_append]
          show Option.map _ (Quoted.unquote? .plain _) = _
          simp only [read, Option.map_some, String.ofList_toList]
  | param slot =>
      show scan? ((Naming.default.param slot).toList ++ rest) = _
      rw [toList_param, List.cons_append]
      show some (param (UInt8.ofNat _), _) = _
      rw [readNat_toDigits slot.toNat apart, UInt8.ofNat_toNat]
  | name callee =>
      cases callee with
      | function id => exact scan?_function id apart
      | command bank id => exact scan?_command bank id apart
  | computed => exact if_pos apart
  | sign mark => 
      cases mark with
      | lt => exact if_neg apart
      | gt => exact if_neg apart
      | bang => exact if_neg apart
      | _ => rfl
  | _ => rfl

/-! ## Lists of lexemes -/

def Spaced : List (Lexeme Literal) -> Prop
  | [] => True
  | lexeme :: rest => Apart lexeme (spelling rest) ∧ Spaced rest

theorem scan?_spelling {lexeme : Lexeme Literal} {rest : List (Lexeme Literal)}
    (spaced : Spaced (lexeme :: rest)) :
    scan? (spelling (lexeme :: rest)) = some (lexeme, spelling rest) := by
  rw [spelling, List.flatMap_cons]
  exact scan?_chars_append spaced.1

/-- Lists of lexemes that are written alike are equal, if every lexeme in them
ends before the next. -/
theorem eq_of_spelling_eq {first second : List (Lexeme Literal)} (firstSpaced : Spaced first)
    (secondSpaced : Spaced second) (same : spelling first = spelling second) :
    first = second := by
  induction first generalizing second with
  | nil =>
      cases second with
      | nil => rfl
      | cons lexeme rest =>
          have scanned := scan?_spelling secondSpaced
          rw [← same] at scanned
          cases scanned
  | cons lexeme rest inductionHypothesis =>
      have scanned := scan?_spelling firstSpaced
      cases second with
      | nil =>
          rw [same] at scanned
          cases scanned
      | cons other others =>
          rw [same, scan?_spelling secondSpaced] at scanned
          rcases Prod.mk.inj (Option.some.inj scanned) with ⟨sameLexeme, sameRest⟩
          rw [sameLexeme, inductionHypothesis firstSpaced.2 secondSpaced.2 sameRest.symm]

theorem head?_spelling_ne {first : Lexeme Literal} {more : List (Lexeme Literal)}
    (spaced : Spaced (first :: more)) (different : first ≠ .sign .eq) :
    (spelling (first :: more)).head? ≠ some '=' := by
  intro head
  have scanned := scan?_spelling spaced
  cases shape : spelling (first :: more) with
  | nil =>
      rw [shape] at head
      cases head
  | cons char others =>
      rw [shape] at head scanned
      cases head
      have equals : scan? ('=' :: others) = some (.sign .eq, others.tail) := rfl
      rw [equals] at scanned
      exact different (Prod.mk.inj (Option.some.inj scanned)).1.symm

/-- Whether an operand may end before the lexemes. -/
def Closes (rest : List (Lexeme Literal)) : Prop :=
  forall lexeme, rest.head? = some lexeme ->
    lexeme ∈ [.blank, .closeParen, .closeBracket, .comma]

theorem Closes.cons {lexeme : Lexeme Literal}
    (closing : lexeme ∈ [.blank, .closeParen, .closeBracket, .comma])
    (rest : List (Lexeme Literal)) : Closes (lexeme :: rest) := by
  intro first head
  cases head
  exact closing

theorem Closes.halts {rest : List (Lexeme Literal)} (closes : Closes rest) :
    Halts isNumeral (spelling rest) := by
  cases rest with
  | nil => nofun
  | cons lexeme rest =>
      have closing := closes lexeme rfl
      simp only [List.mem_cons, List.not_mem_nil, or_false] at closing
      intro char first
      rcases closing with rfl | rfl | rfl | rfl
      all_goals cases first
      all_goals rfl

end Lexeme

/-! ## The lexemes of outlines -/

namespace Outline

open Lexeme

/-- No operand begins with a comparison. -/
theorem exists_first {Leaf : Type} (signed : Leaf -> Bool) (outline : Outline Leaf)
    (needed : Bool) (rest : List (Lexeme Leaf)) :
    Exists fun first => Exists fun more =>
      enclose needed (fun after => outline.lexemesThen signed after) rest = first :: more ∧
        first ≠ .sign .eq := by
  cases needed with
  | true => exact ⟨_, _, rfl, nofun⟩
  | false =>
      induction outline generalizing rest with
      | literal value => exact ⟨_, _, rfl, nofun⟩
      | param slot => exact ⟨_, _, rfl, nofun⟩
      | unary op operand =>
          refine ⟨_, _, rfl, ?_⟩
          cases op with
          | neg => nofun
          | not => nofun
      | binary op left right leftHypothesis =>
          show Exists fun first => Exists fun more =>
            enclose (op.enclosesLeft (left.rank signed))
              (fun after => left.lexemesThen signed after) _ = first :: more ∧ first ≠ .sign .eq
          cases op.enclosesLeft (left.rank signed) with
          | true => exact ⟨_, _, rfl, nofun⟩
          | false => exact leftHypothesis _
      | call callee args => exact ⟨_, _, rfl, nofun⟩
      | computed id args => exact ⟨_, _, rfl, nofun⟩

/-- Every lexeme of the outline ends before the next, whatever closing lexeme
follows the last. -/
def KeepsApart (outline : Outline Literal) : Prop :=
  forall rest, Spaced rest -> Closes rest -> Spaced (outline.lexemesThen Literal.signed rest)

theorem KeepsApart.enclose {operand : Outline Literal} (keeps : operand.KeepsApart)
    (needed : Bool) {rest : List (Lexeme Literal)} (spaced : Spaced rest) (closes : Closes rest) :
    Spaced (Outline.enclose needed (fun after => operand.lexemesThen Literal.signed after)
      rest) := by
  cases needed with
  | false => exact keeps rest spaced closes
  | true =>
      exact ⟨trivial, keeps (.closeParen :: rest) ⟨trivial, spaced⟩ (.cons (by decide) rest)⟩

theorem spaced_furtherArgumentsThen {others : List (Outline Literal)}
    (each : forall arg, arg ∈ others -> KeepsApart arg) {rest : List (Lexeme Literal)}
    (spaced : Spaced rest) :
    Spaced (furtherArgumentsThen Literal.signed others (.closeParen :: rest)) ∧
      Closes (furtherArgumentsThen Literal.signed others (.closeParen :: rest)) := by
  induction others with
  | nil =>
      exact ⟨⟨trivial, spaced⟩, .cons (by decide) rest⟩
  | cons arg others inductionHypothesis =>
      have parts := List.forall_mem_cons.mp each
      rcases inductionHypothesis parts.2 with ⟨following, closes⟩
      exact ⟨⟨trivial, trivial, parts.1 _ following closes⟩, .cons (by decide) _⟩

theorem spaced_argumentsThen {args : List (Outline Literal)}
    (each : forall arg, arg ∈ args -> KeepsApart arg) {rest : List (Lexeme Literal)}
    (spaced : Spaced rest) :
    Spaced (argumentsThen Literal.signed args (.closeParen :: rest)) := by
  cases args with
  | nil => exact ⟨trivial, spaced⟩
  | cons arg others =>
      have parts := List.forall_mem_cons.mp each
      rcases spaced_furtherArgumentsThen parts.2 spaced with ⟨following, closes⟩
      exact parts.1 _ following closes

theorem keepsApart (outline : Outline Literal) : outline.KeepsApart := by
  induction outline with
  | literal value =>
      intro rest spaced closes
      cases value with
      | natural value => exact ⟨closes.halts, spaced⟩
      | decimal text => exact ⟨closes.halts, spaced⟩
      | string content => exact ⟨trivial, spaced⟩
  | param slot =>
      intro rest spaced closes
      refine ⟨?_, spaced⟩
      intro char first
      have refused := closes.halts char first
      exact Bool.eq_false_iff.mpr fun digit =>
        Bool.eq_false_iff.mp refused (isNumeral_of_isDigit digit)
  | unary op operand operandHypothesis =>
      intro rest spaced closes
      have following := operandHypothesis.enclose
        (operand.needsParensAfter Literal.signed op) spaced closes
      refine ⟨?_, following⟩
      cases op with
      | neg => trivial
      | not =>
          -- `!` before `=` would be read as one sign.
          rcases exists_first Literal.signed operand
            (operand.needsParensAfter Literal.signed .not) rest with
            ⟨first, more, shape, different⟩
          rw [shape] at following ⊢
          exact head?_spelling_ne following different
  | binary op left right leftHypothesis rightHypothesis =>
      intro rest spaced closes
      have following := rightHypothesis.enclose
        (op.enclosesRight (right.rank Literal.signed)) spaced closes
      have operator : Apart (.sign op.sign) (spelling (.blank :: Outline.enclose
          (op.enclosesRight (right.rank Literal.signed))
            (fun after => right.lexemesThen Literal.signed after) rest)) := by
        cases op <;> first | trivial | nofun
      exact leftHypothesis.enclose _ ⟨trivial, operator, trivial, following⟩ (.cons (by decide) _)
  | call callee args argsHypothesis =>
      intro rest spaced closes
      refine ⟨?_, trivial, spaced_argumentsThen argsHypothesis spaced⟩
      intro char first
      cases first
      rfl
  | computed id args idHypothesis argsHypothesis =>
      intro rest spaced closes
      have following := spaced_argumentsThen argsHypothesis spaced
      exact ⟨rfl, trivial, idHypothesis _ ⟨trivial, trivial, following⟩ (.cons (by decide) _)⟩

end Outline
end Rpn
