/-!
# Operators

The operators of the expression language, one byte each on the wire.  Every
operator has a sign for infix text, a mnemonic for listings and an opcode.
Unary `-` and binary `-` share a sign but neither mnemonic nor opcode, so the
two kinds of operator are separate types.

A binary operator may have a converse: the operator that gives the same value
once the operands are exchanged.  Subtraction and division have none.
-/

namespace Rpn

/-- The signs that stand for operators in infix text. -/
inductive Sign
  | star | slash | plus | minus | le | lt | ge | gt | eq | ne | and | or | bang
  deriving DecidableEq

namespace Sign

/-- The characters of a sign.  Two signs may begin alike (`<` and `<=`), but
no two are written alike. -/
def text : Sign -> String
  | star => "*"
  | slash => "/"
  | plus => "+"
  | minus => "-"
  | le => "<="
  | lt => "<"
  | ge => ">="
  | gt => ">"
  | eq => "=="
  | ne => "!="
  | and => "&&"
  | or => "||"
  | bang => "!"

end Sign

/-- Which operand of an operator may hold an operator of equal rank without
parentheses. -/
inductive Associativity
  | left | right
  deriving DecidableEq

namespace Associativity

/-- The lower-case name of the side. -/
def name : Associativity -> String
  | left => "left"
  | right => "right"

end Associativity

/-- How tightly an operator binds.  A higher rank binds tighter. -/
structure Precedence where
  rank : Nat
  associativity : Associativity
  deriving DecidableEq

namespace Precedence

/-- Unary operators bind tighter than every binary operator. -/
def unary : Precedence := ⟨8, .right⟩

/-- The rank of an expression that needs no parentheses anywhere. -/
def atomRank : Nat := 10

end Precedence

/-- The operators with one operand. -/
inductive UnaryOp
  | neg | not
  deriving DecidableEq

namespace UnaryOp

/-- Every unary operator, in the order of the opcodes. -/
def all : List UnaryOp := [.neg, .not]

/-- The sign written directly before the operand. -/
def sign : UnaryOp -> Sign
  | neg => .minus
  | not => .bang

/-- The name of the operator in a listing. -/
def mnemonic : UnaryOp -> String
  | neg => "NEG"
  | not => "NOT"

/-- The byte that stands for the operator on the wire. -/
def opcode : UnaryOp -> UInt8
  | neg => 0x8C
  | not => 0x9A

/-- The operator that a byte stands for, if it stands for a unary one. -/
def ofOpcode? (byte : UInt8) : Option UnaryOp :=
  all.find? (fun op => op.opcode == byte)

/-- The operator of a listing name. -/
def ofMnemonic? (name : String) : Option UnaryOp :=
  all.find? (fun op => op.mnemonic == name)

theorem mem_all (op : UnaryOp) : op ∈ all := by
  cases op <;> decide

theorem ofOpcode?_opcode (op : UnaryOp) : ofOpcode? op.opcode = some op := by
  cases op <;> decide

/-- The table of opcodes is read back by searching it, so a byte that is
recognized is the opcode of the operator found. -/
theorem opcode_of_ofOpcode? {byte : UInt8} {op : UnaryOp} (found : ofOpcode? byte = some op) :
    op.opcode = byte := by
  have matched := List.find?_some found
  exact eq_of_beq matched

end UnaryOp

/-- The operators with two operands. -/
inductive BinaryOp
  | add | sub | mul | div | le | ge | lt | gt | eq | ne | and | or
  deriving DecidableEq

namespace BinaryOp

/-- Every binary operator, in the order of the opcodes. -/
def all : List BinaryOp := [.add, .sub, .mul, .div, .le, .ge, .lt, .gt, .eq, .ne, .and, .or]

/-- The sign written between the operands. -/
def sign : BinaryOp -> Sign
  | add => .plus
  | sub => .minus
  | mul => .star
  | div => .slash
  | le => .le
  | ge => .ge
  | lt => .lt
  | gt => .gt
  | eq => .eq
  | ne => .ne
  | and => .and
  | or => .or

/-- The name of the operator in a listing. -/
def mnemonic : BinaryOp -> String
  | add => "ADD"
  | sub => "SUB"
  | mul => "MUL"
  | div => "DIV"
  | le => "LE"
  | ge => "GE"
  | lt => "LT"
  | gt => "GT"
  | eq => "EQ"
  | ne => "NE"
  | and => "AND"
  | or => "OR"

/-- The byte that stands for the operator on the wire.  The byte `0x97`
between the comparisons and the connectives stands for nothing. -/
def opcode : BinaryOp -> UInt8
  | add => 0x8D
  | sub => 0x8E
  | mul => 0x8F
  | div => 0x90
  | le => 0x91
  | ge => 0x92
  | lt => 0x93
  | gt => 0x94
  | eq => 0x95
  | ne => 0x96
  | and => 0x98
  | or => 0x99

/-- The operator that a byte stands for, if it stands for a binary one. -/
def ofOpcode? (byte : UInt8) : Option BinaryOp :=
  all.find? (fun op => op.opcode == byte)

/-- The operator of a listing name. -/
def ofMnemonic? (name : String) : Option BinaryOp :=
  all.find? (fun op => op.mnemonic == name)

/-- Every binary operator groups to the left. -/
def precedence : BinaryOp -> Precedence
  | mul | div => ⟨6, .left⟩
  | add | sub => ⟨5, .left⟩
  | le | ge | lt | gt => ⟨4, .left⟩
  | eq | ne => ⟨3, .left⟩
  | and => ⟨2, .left⟩
  | or => ⟨1, .left⟩

/-- The operator that gives the same value on exchanged operands. -/
def converse? : BinaryOp -> Option BinaryOp
  | add => some add
  | mul => some mul
  | eq => some eq
  | ne => some ne
  | and => some and
  | or => some or
  | lt => some gt
  | gt => some lt
  | le => some ge
  | ge => some le
  | sub | div => none

theorem mem_all (op : BinaryOp) : op ∈ all := by
  cases op <;> decide

theorem ofOpcode?_opcode (op : BinaryOp) : ofOpcode? op.opcode = some op := by
  cases op <;> decide

theorem opcode_of_ofOpcode? {byte : UInt8} {op : BinaryOp} (found : ofOpcode? byte = some op) :
    op.opcode = byte := by
  have matched := List.find?_some found
  exact eq_of_beq matched

/-- Exchanging twice exchanges nothing. -/
theorem converse?_involutive {op converse : BinaryOp} (found : op.converse? = some converse) :
    converse.converse? = some op := by
  cases op <;> cases found <;> rfl

end BinaryOp
end Rpn
