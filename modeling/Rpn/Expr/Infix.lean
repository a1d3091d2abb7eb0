import Rpn.Token

/-!
# Infix text of a tree

A tree is written with its operators between or before their operands.  An
operand is enclosed in parentheses when it would otherwise be read as part of
something else: when it binds looser than the operator, or equally tight on
the side where the operator does not group.  After a unary operator it is also
enclosed when it would begin with the same sign, so that a sign is never
doubled.

A negative literal begins with a minus sign, so it ranks as a unary operation
and not as an atom.
-/

namespace Rpn
namespace BinaryOp

/-- Whether the left operand needs parentheses, by its rank. -/
def enclosesLeft (op : BinaryOp) (rank : Nat) : Bool :=
  rank < op.precedence.rank ||
    (rank == op.precedence.rank && op.precedence.associativity == .right)

/-- Whether the right operand needs parentheses, by its rank. -/
def enclosesRight (op : BinaryOp) (rank : Nat) : Bool :=
  rank < op.precedence.rank ||
    (rank == op.precedence.rank && op.precedence.associativity == .left)

end BinaryOp

namespace Expr

/-- How tightly the outermost operation binds. -/
def rank : Expr -> Nat
  | const constant => if constant.isNegative then Precedence.unary.rank else Precedence.atomRank
  | param _ | function _ _ | command _ _ _ => Precedence.atomRank
  | unary _ _ => Precedence.unary.rank
  | binary op _ _ => op.precedence.rank

/-- Whether the text, not enclosed, begins with the sign of a unary operator. -/
def startsWith (op : UnaryOp) : Expr -> Bool
  | unary inner _ => inner == op
  | const constant => op == .neg && constant.isNegative
  | _ => false

/-- Whether the operand of a unary operator needs parentheses. -/
def needsParensAfter (op : UnaryOp) (operand : Expr) : Bool :=
  operand.rank < Precedence.unary.rank || operand.startsWith op

/-- Tokens in parentheses if these are needed.  The tokens are given as what
they put in front of any others. -/
def enclose (needed : Bool) (inner : List Token -> List Token) (rest : List Token) : List Token :=
  if needed then .openParen :: inner (.closeParen :: rest) else inner rest

mutual

/-- The tokens of a tree, followed by `rest`. -/
def tokensThen : Expr -> List Token -> List Token
  | const constant, rest => .literal constant :: rest
  | param slot, rest => .param slot :: rest
  | unary op operand, rest =>
    .sign op.sign ::
      enclose (operand.needsParensAfter op) (fun after => operand.tokensThen after) rest
  | binary op left right, rest =>
    enclose (op.enclosesLeft left.rank) (fun after => left.tokensThen after)
      (.blank :: .sign op.sign :: .blank ::
        enclose (op.enclosesRight right.rank) (fun after => right.tokensThen after) rest)
  | function id args, rest =>
    let arguments := .openParen :: argumentsThen args (.closeParen :: rest)
    match id.int? with
    | some value => .function value :: arguments
    | none => .computedFunction :: .openBracket :: id.tokensThen (.closeBracket :: arguments)
  | command bank id args, rest =>
    .command bank id :: .openParen :: argumentsThen args (.closeParen :: rest)

/-- The tokens of arguments with a comma and a blank between them, followed
by `rest`. -/
def argumentsThen : List Expr -> List Token -> List Token
  | [], rest => rest
  | expr :: others, rest => expr.tokensThen (furtherArgumentsThen others rest)

/-- The tokens of the arguments after the first, each behind its comma. -/
def furtherArgumentsThen : List Expr -> List Token -> List Token
  | [], rest => rest
  | expr :: others, rest =>
    .comma :: .blank :: expr.tokensThen (furtherArgumentsThen others rest)

end

/-- The tokens of a tree. -/
def tokens (expr : Expr) : List Token :=
  expr.tokensThen []

/-- The infix text of a tree under a naming. -/
def text (naming : Naming) (expr : Expr) : String :=
  String.join (expr.tokens.map (Token.text naming))

/-- The infix text of a tree with numbers for names. -/
def defaultText (expr : Expr) : String :=
  expr.text .default

end Expr
end Rpn
