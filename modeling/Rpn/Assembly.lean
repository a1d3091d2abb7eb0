import Rpn.ArityTable
import Rpn.Assembler
import Rpn.Expr.Infix
import Rpn.Framing
import Rpn.Log

/-!
# Assembling a tree

A tree is written child by child and node by node, every constant at exactly
its declared width.  The assembled bytes are the ones from which the tree is
decompiled again under the same limits, so a tree beyond the limits is refused.

The checks come in the order of the work.  The nesting level and the argument
count of a command are checked when a node is entered, what cannot be encoded
is found when it is left, and the stack need is compared at the end.  The first
fault is reported.
-/

namespace Rpn

/-- Limits and framing of assembled code. -/
structure AssemblyOptions where
  framing : Framing := .terminated
  stackLimit : Nat := 256
  nestingLimit : Nat := 512

/-- Why a tree is not assembled. -/
inductive AssemblyError
  | notEncodable (error : EncodingError)
  | arityMismatch (bank : UInt8) (id : Int32) (expected actual : Nat)
  | unknownCommand (bank : UInt8) (id : Int32)
  | stackOverflow (depth limit : Nat)
  | nestingTooDeep (limit : Nat)
  deriving DecidableEq

namespace AssemblyError

/-- The error in words. -/
def message : AssemblyError -> String
  | notEncodable (.outOfRange value width) =>
    s!"constant {value} cannot be encoded losslessly at " ++ width.name ++ " width"
  | notEncodable .interiorNul => "string constant contains an embedded NUL"
  | notEncodable (.paramOutOfRange slot) => s!"parameter slot {slot} is out of range"
  | notEncodable (.tooManyArguments args) =>
    s!"function call with {args} arguments exceeds the encodable maximum"
  | arityMismatch bank id expected actual =>
    s!"command {bank}:{id} takes {expected} arguments but the call has {actual}"
  | unknownCommand bank id => s!"command {bank}:{id} has no argument count"
  | stackOverflow depth limit =>
    s!"encoded expression needs {depth} stack values but the limit is {limit}"
  | nestingTooDeep limit => s!"expression nests deeper than {limit}"

end AssemblyError

/-- Assembled code and the greatest number of values it puts on the stack. -/
structure Assembled where
  bytes : List UInt8
  peak : Nat
  deriving DecidableEq

/-- What a tree is checked against while it is written.  Without a table, a
command may have any number of arguments. -/
structure AssemblyRules where
  arities? : Option ArityTable
  nestingLimit : Nat

namespace AssemblyRules

/-- Whether a command may be called with this many arguments. -/
def admitCall (rules : AssemblyRules) (bank : UInt8) (id : Int32) (actual : Nat) :
    Except AssemblyError Unit :=
  match rules.arities? with
  | none => .ok ()
  | some arities =>
    match arities bank id with
    | none => .error (.unknownCommand bank id)
    | some expected =>
      if expected = actual then .ok () else .error (.arityMismatch bank id expected actual)

/-- The checks on entering a node.  The root is at level one, and its level is
never too deep. -/
def enter (rules : AssemblyRules) (level : Nat) (node : Node) : Except AssemblyError Unit :=
  if 1 < level ∧ rules.nestingLimit < level then
    .error (.nestingTooDeep rules.nestingLimit)
  else
    match node with
    | .command bank id args => rules.admitCall bank id args
    | _ => .ok ()

end AssemblyRules

namespace Assembler

/-- Write a node on leaving it. -/
def leave (assembler : Assembler) (node : Node) : Except AssemblyError Assembler :=
  match assembler.attempt (.node node) with
  | (some error, _) => .error (.notEncodable error)
  | (none, following) => .ok following

end Assembler

namespace Expr

mutual

/-- Write a tree found at a level. -/
def write (rules : AssemblyRules) (level : Nat) : Expr -> Assembler ->
    Except AssemblyError Assembler
  | const constant, assembler => do
    rules.enter level (.const constant)
    assembler.leave (.const constant)
  | param slot, assembler => do
    rules.enter level (.param slot)
    assembler.leave (.param slot)
  | unary op operand, assembler => do
    rules.enter level (.unary op)
    let assembler ← operand.write rules (level + 1) assembler
    assembler.leave (.unary op)
  | binary op left right, assembler => do
    rules.enter level (.binary op)
    let assembler ← left.write rules (level + 1) assembler
    let assembler ← right.write rules (level + 1) assembler
    assembler.leave (.binary op)
  | function id args, assembler => do
    rules.enter level (.function args.length)
    let assembler ← id.write rules (level + 1) assembler
    let assembler ← writeAll rules (level + 1) args assembler
    assembler.leave (.function args.length)
  | command bank id args, assembler => do
    rules.enter level (.command bank id args.length)
    let assembler ← writeAll rules (level + 1) args assembler
    assembler.leave (.command bank id args.length)

/-- Write the trees of a list, first to last. -/
def writeAll (rules : AssemblyRules) (level : Nat) : List Expr -> Assembler ->
    Except AssemblyError Assembler
  | [], assembler => .ok assembler
  | expr :: rest, assembler => do
    let assembler ← expr.write rules level assembler
    writeAll rules level rest assembler

end

/-- Assemble a tree, checking commands against a table if there is one. -/
def assemble (options : AssemblyOptions) (arities? : Option ArityTable) (expr : Expr) :
    Except AssemblyError Assembled := do
  let rules : AssemblyRules := ⟨arities?, options.nestingLimit⟩
  let written ← expr.write rules 1 .empty
  if options.stackLimit < written.peak then
    .error (.stackOverflow written.peak options.stackLimit)
  else
    let framed :=
      match options.framing with
      | .terminated => written.stop
      | .unterminated => written
    .ok ⟨framed.bytes.toList, written.peak⟩

/-- The messages of assembling a tree: one if it succeeds, none if not. -/
def assemblyLog (options : AssemblyOptions) (expr : Expr)
    (outcome : Except AssemblyError Assembled) : List LogMessage :=
  match outcome with
  | .error _ => []
  | .ok assembled =>
    [⟨.debug, "Encoded " ++ expr.defaultText ++ s!" as {assembled.bytes.length} bytes (" ++
      options.framing.title ++ ")"⟩]

end Expr
end Rpn
