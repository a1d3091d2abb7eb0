import Rpn.Proofs.Scanning

/-!
# What infix text tells of a tree

Infix text shows neither the width of an integer nor the size of a float, and
it shows a negative literal as the negation of another literal.  `Expr.erase`
drops exactly this.  Main statement: two trees have the same text if and only
if nothing else distinguishes them (`Expr.defaultText_eq_iff`).

The text of a tree is the spelling of the lexemes of what is left of it.  These
are found in the text by scanning, and they are read back as one outline.
-/

namespace Rpn

/-! ## Erasure -/

namespace Constant

/-- The literal without its sign. -/
def magnitude : Constant -> Literal
  | int value _ => .natural value.natAbs
  | float32 bits => .decimal ((FloatFormat.single.value bits.toNat).magnitude .single)
  | float64 bits => .decimal ((FloatFormat.double.value bits.toNat).magnitude .double)
  | string text => .string text

/-- A constant as text shows it.  A sign is a negation. -/
def erase (constant : Constant) : Outline Literal :=
  if constant.isNegative then .unary .neg (.literal constant.magnitude)
  else .literal constant.magnitude

theorem toList_literal (constant : Constant) :
    constant.literal.toList =
      if constant.isNegative then '-' :: constant.magnitude.chars
      else constant.magnitude.chars := by
  cases constant with
  | int value width =>
      rw [literal, toList_toString_int]
      simp only [isNegative, decide_eq_true_eq, magnitude, Literal.chars]
  | float32 bits => exact FloatValue.toList_text .single _
  | float64 bits => exact FloatValue.toList_text .double _
  | string text => rfl

end Constant

namespace Expr

mutual

/-- A tree without what its text does not show: the widths of its integers, the
sizes of its floats, and whether a minus sign before a literal belongs to it. -/
def erase : Expr -> Outline Literal
  | const constant => constant.erase
  | param slot => .param slot
  | unary op operand => .unary op operand.erase
  | binary op left right => .binary op left.erase right.erase
  | function id args =>
    match id.int? with
    | some value => .call (.function value) (eraseAll args)
    | none => .computed id.erase (eraseAll args)
  | command bank id args => .call (.command bank id) (eraseAll args)

def eraseAll : List Expr -> List (Outline Literal)
  | [] => []
  | expr :: others => expr.erase :: eraseAll others

end

/-! ## The lexemes of the tokens -/

end Expr

def Token.lexemes : Token -> List (Lexeme Literal)
  | literal constant =>
    if constant.isNegative then [.sign .minus, .literal constant.magnitude]
    else [.literal constant.magnitude]
  | param slot => [.param slot]
  | function id => [.name (.function id)]
  | computedFunction => [.computed]
  | command bank id => [.name (.command bank id)]
  | sign mark => [.sign mark]
  | openParen => [.openParen]
  | closeParen => [.closeParen]
  | openBracket => [.openBracket]
  | closeBracket => [.closeBracket]
  | comma => [.comma]
  | blank => [.blank]

theorem Token.spelling_lexemes (token : Token) :
    Lexeme.spelling token.lexemes = (token.text .default).toList := by
  cases token with
  | literal constant =>
      rw [text, constant.toList_literal, lexemes]
      split
      · exact congrArg (List.cons '-') (List.append_nil _)
      · exact List.append_nil _
  | param slot => exact List.append_nil _
  | function id => exact List.append_nil _
  | command bank id => exact List.append_nil _
  | sign mark => exact List.append_nil _
  | _ => rfl

namespace Expr

theorem rank_erase (expr : Expr) : expr.erase.rank Literal.signed = expr.rank := by
  cases expr with
  | const constant =>
      rw [erase, Constant.erase, rank]
      split
      · rfl
      · rfl
  | function id args =>
      rw [erase]
      split
      · rfl
      · rfl
  | _ => rfl

theorem startsWith_erase (op : UnaryOp) (expr : Expr) :
    expr.erase.startsWith Literal.signed op = expr.startsWith op := by
  cases expr with
  | const constant =>
      rw [erase, Constant.erase, startsWith]
      cases constant.isNegative with
      | true => cases op <;> rfl
      | false => cases op <;> rfl
  | function id args =>
      rw [erase]
      split
      · rfl
      · rfl
  | _ => rfl

/-- The lexemes of an expression are those of what is left of it. -/
def Outlined (expr : Expr) : Prop :=
  forall rest, (expr.tokensThen rest).flatMap Token.lexemes =
    expr.erase.lexemesThen Literal.signed (rest.flatMap Token.lexemes)

theorem Outlined.enclose {expr : Expr} (outlined : expr.Outlined) (needed : Bool)
    (rest : List Token) :
    (Expr.enclose needed (fun after => expr.tokensThen after) rest).flatMap Token.lexemes =
      Outline.enclose needed (fun after => expr.erase.lexemesThen Literal.signed after)
        (rest.flatMap Token.lexemes) := by
  cases needed with
  | false => exact outlined rest
  | true => exact congrArg (List.cons .openParen) (outlined (.closeParen :: rest))

theorem flatMap_lexemes_furtherArgumentsThen {others : List Expr}
    (each : forall arg, arg ∈ others -> Outlined arg) (rest : List Token) :
    (furtherArgumentsThen others rest).flatMap Token.lexemes =
      Outline.furtherArgumentsThen Literal.signed (eraseAll others)
        (rest.flatMap Token.lexemes) := by
  induction others with
  | nil => rfl
  | cons arg others inductionHypothesis =>
      have parts := List.forall_mem_cons.mp each
      have following := parts.1 (furtherArgumentsThen others rest)
      rw [inductionHypothesis parts.2] at following
      exact congrArg (fun after => .comma :: .blank :: after) following

theorem flatMap_lexemes_argumentsThen {args : List Expr}
    (each : forall arg, arg ∈ args -> Outlined arg) (rest : List Token) :
    (argumentsThen args rest).flatMap Token.lexemes =
      Outline.argumentsThen Literal.signed (eraseAll args) (rest.flatMap Token.lexemes) := by
  cases args with
  | nil => rfl
  | cons arg others =>
      have parts := List.forall_mem_cons.mp each
      have following := parts.1 (furtherArgumentsThen others rest)
      rw [flatMap_lexemes_furtherArgumentsThen parts.2] at following
      exact following

theorem outlined (expr : Expr) : expr.Outlined := by
  induction expr with
  | const constant =>
      intro rest
      rw [tokensThen, List.flatMap_cons, Token.lexemes, erase, Constant.erase]
      split
      · rfl
      · rfl
  | param slot => intro rest; rfl
  | unary op operand operandHypothesis =>
      intro rest
      have same : operand.erase.needsParensAfter Literal.signed op =
          operand.needsParensAfter op := by
        rw [Outline.needsParensAfter, rank_erase, startsWith_erase, needsParensAfter]
      rw [tokensThen, List.flatMap_cons, operandHypothesis.enclose, ← same]
      rfl
  | binary op left right leftHypothesis rightHypothesis =>
      intro rest
      have following := congrArg (fun after => .blank :: .sign op.sign :: .blank :: after)
        (rightHypothesis.enclose (op.enclosesRight right.rank) rest)
      rw [tokensThen, leftHypothesis.enclose, ← rank_erase left, ← rank_erase right]
      rw [← rank_erase right] at following
      exact congrArg _ following
  | function id args idHypothesis argsHypothesis =>
      intro rest
      have arguments := flatMap_lexemes_argumentsThen argsHypothesis (.closeParen :: rest)
      cases found : id.int? with
      | some value =>
          simp only [tokensThen, erase, found]
          exact congrArg (fun after => .name (.function value) :: .openParen :: after) arguments
      | none =>
          simp only [tokensThen, erase, found]
          have following := idHypothesis
            (.closeBracket :: .openParen :: argumentsThen args (.closeParen :: rest))
          have call := congrArg (fun after => .closeBracket :: .openParen :: after) arguments
          exact congrArg (fun after => .computed :: .openBracket :: after)
            (following.trans (congrArg _ call))
  | command bank id args argsHypothesis =>
      intro rest
      have arguments := flatMap_lexemes_argumentsThen argsHypothesis (.closeParen :: rest)
      exact congrArg (fun after => .name (.command bank id) :: .openParen :: after) arguments

theorem toList_defaultText (expr : Expr) :
    expr.defaultText.toList = Lexeme.spelling (expr.erase.lexemes Literal.signed) := by
  have lexemes : expr.tokens.flatMap Token.lexemes = expr.erase.lexemes Literal.signed :=
    expr.outlined []
  rw [defaultText, text, String.toList_join, List.flatMap_map, ← lexemes, Lexeme.spelling,
    List.flatMap_assoc]
  exact List.flatMap_congr fun token _ => token.spelling_lexemes.symm

/-- Two trees have the same text exactly if they differ in nothing but what
text does not show. -/
theorem defaultText_eq_iff {first second : Expr} :
    first.defaultText = second.defaultText ↔ first.erase = second.erase := by
  have spaced : forall expr : Expr, Lexeme.Spaced (expr.erase.lexemes Literal.signed) :=
    fun expr => expr.erase.keepsApart [] trivial nofun
  constructor
  · intro same
    have spelled := congrArg String.toList same
    rw [toList_defaultText, toList_defaultText] at spelled
    exact Outline.lexemes_injective _ (Lexeme.eq_of_spelling_eq (spaced first) (spaced second) spelled)
  · intro same
    apply String.toList_injective
    rw [toList_defaultText, same, toList_defaultText]

example : (Expr.unary .neg (.ofInt 5)).erase = (Expr.ofInt (-5)).erase := rfl

end Expr
end Rpn
