import Mathlib.Data.List.Basic
import Rpn.Expr.Infix

/-!
# Reading infix text

An outline is a tree as text shows it: a call is named by a number or by a
bracketed identifier, and nothing is said about what a leaf may be.  Lexemes
are what its text consists of.

The lexemes are read by a machine with a stack of unfinished phrases.  It knows
of an operator only its sign and its rank.  When an operator or the end of a
phrase comes up, the operators before it that bind at least as tight take their
operands.  Main statement: the machine reads every outline back from its
lexemes, so no two outlines have the same lexemes (`read?_lexemes`).
-/

namespace Rpn

inductive Callee
  | function (id : Int)
  | command (bank : UInt8) (id : Int32)
  deriving DecidableEq

/-- A tree as text shows it. -/
inductive Outline (Leaf : Type)
  | literal (value : Leaf)
  | param (slot : UInt8)
  | unary (op : UnaryOp) (operand : Outline Leaf)
  | binary (op : BinaryOp) (left right : Outline Leaf)
  | call (callee : Callee) (args : List (Outline Leaf))
  /-- A call of the function that an outline identifies. -/
  | computed (id : Outline Leaf) (args : List (Outline Leaf))

inductive Lexeme (Leaf : Type)
  | literal (value : Leaf)
  | param (slot : UInt8)
  | name (callee : Callee)
  | computed
  | sign (mark : Sign)
  | openParen
  | closeParen
  | openBracket
  | closeBracket
  | comma
  | blank
  deriving DecidableEq

namespace Outline

variable {Leaf : Type}

@[elab_as_elim, induction_eliminator]
theorem induct {motive : Outline Leaf -> Prop}
    (literal : forall value, motive (.literal value))
    (param : forall slot, motive (.param slot))
    (unary : forall op operand, motive operand -> motive (.unary op operand))
    (binary : forall op left right, motive left -> motive right -> motive (.binary op left right))
    (call : forall callee args, (forall arg, arg ∈ args -> motive arg) ->
      motive (.call callee args))
    (computed : forall id args, motive id -> (forall arg, arg ∈ args -> motive arg) ->
      motive (.computed id args))
    (outline : Outline Leaf) : motive outline :=
  @Outline.rec Leaf motive (fun args => forall arg, arg ∈ args -> motive arg)
    literal param unary binary call computed
    (fun _ member => nomatch member)
    (fun _ _ first others arg member => by
      cases member with
      | head => exact first
      | tail _ member => exact others arg member)
    outline

/-! ## Writing -/

/-- How tightly the outermost operation binds.  A leaf whose text begins with
a minus sign binds like a unary operation. -/
def rank (signed : Leaf -> Bool) : Outline Leaf -> Nat
  | literal value => if signed value then Precedence.unary.rank else Precedence.atomRank
  | param _ | call _ _ | computed _ _ => Precedence.atomRank
  | unary _ _ => Precedence.unary.rank
  | binary op _ _ => op.precedence.rank

def startsWith (signed : Leaf -> Bool) (op : UnaryOp) : Outline Leaf -> Bool
  | unary inner _ => inner == op
  | literal value => op == .neg && signed value
  | _ => false

def needsParensAfter (signed : Leaf -> Bool) (op : UnaryOp) (operand : Outline Leaf) : Bool :=
  operand.rank signed < Precedence.unary.rank || operand.startsWith signed op

def enclose (needed : Bool) (inner : List (Lexeme Leaf) -> List (Lexeme Leaf))
    (rest : List (Lexeme Leaf)) : List (Lexeme Leaf) :=
  if needed then .openParen :: inner (.closeParen :: rest) else inner rest

mutual

/-- The lexemes of an outline, followed by `rest`. -/
def lexemesThen (signed : Leaf -> Bool) :
    Outline Leaf -> List (Lexeme Leaf) -> List (Lexeme Leaf)
  | literal value, rest => .literal value :: rest
  | param slot, rest => .param slot :: rest
  | unary op operand, rest =>
    .sign op.sign ::
      enclose (operand.needsParensAfter signed op) (fun after => operand.lexemesThen signed after)
        rest
  | binary op left right, rest =>
    enclose (op.enclosesLeft (left.rank signed)) (fun after => left.lexemesThen signed after)
      (.blank :: .sign op.sign :: .blank ::
        enclose (op.enclosesRight (right.rank signed))
          (fun after => right.lexemesThen signed after) rest)
  | call callee args, rest =>
    .name callee :: .openParen :: argumentsThen signed args (.closeParen :: rest)
  | computed id args, rest =>
    .computed :: .openBracket :: id.lexemesThen signed
      (.closeBracket :: .openParen :: argumentsThen signed args (.closeParen :: rest))

def argumentsThen (signed : Leaf -> Bool) :
    List (Outline Leaf) -> List (Lexeme Leaf) -> List (Lexeme Leaf)
  | [], rest => rest
  | outline :: others, rest =>
    outline.lexemesThen signed (furtherArgumentsThen signed others rest)

def furtherArgumentsThen (signed : Leaf -> Bool) :
    List (Outline Leaf) -> List (Lexeme Leaf) -> List (Lexeme Leaf)
  | [], rest => rest
  | outline :: others, rest =>
    .comma :: .blank :: outline.lexemesThen signed (furtherArgumentsThen signed others rest)

end

def lexemes (signed : Leaf -> Bool) (outline : Outline Leaf) : List (Lexeme Leaf) :=
  outline.lexemesThen signed []

end Outline

/-! ## Reading -/

def UnaryOp.ofSign? (sign : Sign) : Option UnaryOp :=
  all.find? (fun op => op.sign == sign)

def BinaryOp.ofSign? (sign : Sign) : Option BinaryOp :=
  all.find? (fun op => op.sign == sign)

theorem UnaryOp.ofSign?_sign (op : UnaryOp) : ofSign? op.sign = some op := by
  cases op <;> decide

theorem BinaryOp.ofSign?_sign (op : BinaryOp) : ofSign? op.sign = some op := by
  cases op <;> decide

theorem BinaryOp.rank_lt_unary (op : BinaryOp) :
    op.precedence.rank < Precedence.unary.rank := by
  cases op <;> decide

theorem BinaryOp.le_of_enclosesLeft_eq_false {op : BinaryOp} {rank : Nat}
    (bare : op.enclosesLeft rank = false) : op.precedence.rank ≤ rank := by
  have tight := (Bool.or_eq_false_iff.mp bare).1
  exact Nat.le_of_not_lt (of_decide_eq_false tight)

/-- Every operator groups to the left, so an equal rank on its right side is
enclosed. -/
theorem BinaryOp.lt_of_enclosesRight_eq_false {op : BinaryOp} {rank : Nat}
    (bare : op.enclosesRight rank = false) : op.precedence.rank < rank := by
  have groups : op.precedence.associativity = .left := by cases op <;> rfl
  rcases Bool.or_eq_false_iff.mp bare with ⟨tight, different⟩
  have le := Nat.le_of_not_lt (of_decide_eq_false tight)
  rw [groups, beq_self_eq_true, Bool.and_true] at different
  exact Nat.lt_of_le_of_ne le (Ne.symm (beq_eq_false_iff_ne.mp different))

namespace Reader

variable {Leaf : Type}

/-- A phrase that is not finished yet. -/
inductive Frame (Leaf : Type)
  | prefixed (op : UnaryOp)
  | infixed (left : Outline Leaf) (op : BinaryOp)
  | grouped
  | bracketed
  /-- A call, by what is made of its arguments, after some of them. -/
  | called (make : List (Outline Leaf) -> Outline Leaf) (before : List (Outline Leaf))

/-- What is to come next. -/
inductive Phase (Leaf : Type)
  | expecting
  /-- The parenthesis of a call must follow. -/
  | naming (make : List (Outline Leaf) -> Outline Leaf)
  /-- The bracket of an identifier must follow. -/
  | computing
  /-- A whole operand has been read. -/
  | holding (value : Outline Leaf)

/-- Give the value to the operators before it that bind at least as tight as
the rank. -/
def settle (rank : Nat) (value : Outline Leaf) :
    List (Frame Leaf) -> Outline Leaf × List (Frame Leaf)
  | .prefixed op :: below => settle rank (.unary op value) below
  | .infixed left op :: below =>
    if rank ≤ op.precedence.rank then settle rank (.binary op left value) below
    else (value, .infixed left op :: below)
  | frames => (value, frames)

/-- Read one lexeme.  Blanks are skipped wherever they stand. -/
def step : Phase Leaf -> List (Frame Leaf) -> Lexeme Leaf ->
    Option (Phase Leaf × List (Frame Leaf))
  | phase, frames, .blank => some (phase, frames)
  | .expecting, frames, .literal value => some (.holding (.literal value), frames)
  | .expecting, frames, .param slot => some (.holding (.param slot), frames)
  | .expecting, frames, .name callee => some (.naming (.call callee), frames)
  | .expecting, frames, .computed => some (.computing, frames)
  | .expecting, frames, .openParen => some (.expecting, .grouped :: frames)
  | .expecting, frames, .sign mark =>
    (UnaryOp.ofSign? mark).map fun op => (.expecting, .prefixed op :: frames)
  | .expecting, .called make [] :: below, .closeParen => some (.holding (make []), below)
  | .naming make, frames, .openParen => some (.expecting, .called make [] :: frames)
  | .computing, frames, .openBracket => some (.expecting, .bracketed :: frames)
  | .holding value, frames, .sign mark =>
    (BinaryOp.ofSign? mark).map fun op =>
      let (left, below) := settle op.precedence.rank value frames
      (.expecting, .infixed left op :: below)
  | .holding value, frames, .closeParen =>
    match settle 0 value frames with
    | (inner, .grouped :: below) => some (.holding inner, below)
    | (last, .called make before :: below) => some (.holding (make (before ++ [last])), below)
    | _ => none
  | .holding value, frames, .closeBracket =>
    match settle 0 value frames with
    | (id, .bracketed :: below) => some (.naming (.computed id), below)
    | _ => none
  | .holding value, frames, .comma =>
    match settle 0 value frames with
    | (arg, .called make before :: below) =>
      some (.expecting, .called make (before ++ [arg]) :: below)
    | _ => none
  | _, _, _ => none

/-- What has been read, if it is one outline and no phrase is left open. -/
def finish : Phase Leaf -> List (Frame Leaf) -> Option (Outline Leaf)
  | .holding value, frames =>
    match settle 0 value frames with
    | (whole, []) => some whole
    | _ => none
  | _, _ => none

def run (phase : Phase Leaf) (frames : List (Frame Leaf)) :
    List (Lexeme Leaf) -> Option (Outline Leaf)
  | [] => finish phase frames
  | lexeme :: rest =>
    match step phase frames lexeme with
    | none => none
    | some (following, after) => run following after rest

end Reader

namespace Reader

variable {Leaf : Type}

/-- The rank of the operator that follows, zero where a phrase ends. -/
def followingRank : List (Lexeme Leaf) -> Nat
  | .blank :: rest => followingRank rest
  | .sign mark :: _ =>
    match BinaryOp.ofSign? mark with
    | some op => op.precedence.rank
    | none => 0
  | _ => 0

/-- Whether an operand of the rank is not taken apart by the operator before
it. -/
def Admits (frames : List (Frame Leaf)) (rank : Nat) : Prop :=
  match frames with
  | .prefixed _ :: _ => Precedence.unary.rank ≤ rank
  | .infixed _ op :: _ => op.precedence.rank < rank
  | _ => True

theorem Admits.mono {frames : List (Frame Leaf)} {rank higher : Nat}
    (admits : Admits frames rank) (le : rank ≤ higher) : Admits frames higher := by
  unfold Admits at admits ⊢
  split
  · exact Nat.le_trans admits le
  · exact Nat.lt_of_lt_of_le admits le
  · trivial

/-- An operator takes nothing from the frames that admit it. -/
theorem settle_of_admits {frames : List (Frame Leaf)} {op : BinaryOp}
    (admits : Admits frames op.precedence.rank) (value : Outline Leaf) :
    settle op.precedence.rank value frames = (value, frames) := by
  cases frames with
  | nil => rfl
  | cons frame below =>
      cases frame with
      | prefixed inner => exact absurd admits (Nat.not_le_of_lt op.rank_lt_unary)
      | infixed left inner => exact if_neg (Nat.not_le_of_lt admits)
      | _ => rfl

/-- Only what the operands come to under the following operator matters to the
rest of a reading. -/
theorem run_holding_congr {value other : Outline Leaf} {frames below : List (Frame Leaf)}
    {rest : List (Lexeme Leaf)}
    (same : forall rank, rank ≤ followingRank rest ->
      settle rank value frames = settle rank other below) :
    run (.holding value) frames rest = run (.holding other) below rest := by
  have closing := same 0 (Nat.zero_le _)
  induction rest with
  | nil => simp only [run, finish, closing]
  | cons lexeme rest inductionHypothesis =>
      cases lexeme with
      | blank => exact inductionHypothesis same
      | sign mark =>
          simp only [run, step]
          cases found : BinaryOp.ofSign? mark with
          | none => rfl
          | some op =>
              have settled := same op.precedence.rank (by simp only [followingRank, found, Nat.le_refl])
              simp only [Option.map_some, settled]
      | _ => simp only [run, step, closing]

/-- An operand that ends before its operator binds looser than what follows is
given to the operator. -/
theorem run_holding_infixed {left right : Outline Leaf} {op : BinaryOp}
    {frames : List (Frame Leaf)} {rest : List (Lexeme Leaf)}
    (stops : followingRank rest ≤ op.precedence.rank) :
    run (.holding right) (.infixed left op :: frames) rest =
      run (.holding (.binary op left right)) frames rest := by
  apply run_holding_congr
  intro rank bound
  exact if_pos (Nat.le_trans bound stops)

theorem run_holding_prefixed (operand : Outline Leaf) (op : UnaryOp)
    (frames : List (Frame Leaf)) (rest : List (Lexeme Leaf)) :
    run (.holding operand) (.prefixed op :: frames) rest =
      run (.holding (.unary op operand)) frames rest :=
  run_holding_congr fun _ _ => rfl

variable {signed : Leaf -> Bool}

/-- Whether the lexemes of an outline are read as this outline where nothing
around them takes it apart. -/
def Reads (signed : Leaf -> Bool) (outline : Outline Leaf) : Prop :=
  forall (frames : List (Frame Leaf)) (rest : List (Lexeme Leaf)),
    Admits frames (outline.rank signed) -> followingRank rest ≤ outline.rank signed ->
      run .expecting frames (outline.lexemesThen signed rest) = run (.holding outline) frames rest

/-- Nothing takes apart what stands in parentheses. -/
theorem Reads.run_enclose {operand : Outline Leaf} (reads : Reads signed operand) {needed : Bool}
    {frames : List (Frame Leaf)} {rest : List (Lexeme Leaf)}
    (bare : needed = false -> Admits frames (operand.rank signed) ∧
      followingRank rest ≤ operand.rank signed) :
    run .expecting frames
        (Outline.enclose needed (fun after => operand.lexemesThen signed after) rest) =
      run (.holding operand) frames rest := by
  cases needed with
  | false => exact reads frames rest (bare rfl).1 (bare rfl).2
  | true => exact reads (.grouped :: frames) (.closeParen :: rest) trivial (Nat.zero_le _)

private theorem followingRank_furtherArgumentsThen (signed : Leaf -> Bool)
    (others : List (Outline Leaf)) (rest : List (Lexeme Leaf)) :
    followingRank (Outline.furtherArgumentsThen signed others (.closeParen :: rest)) = 0 := by
  cases others with
  | nil => rfl
  | cons _ _ => rfl

theorem run_furtherArgumentsThen {others : List (Outline Leaf)}
    (each : forall arg, arg ∈ others -> Reads signed arg)
    (make : List (Outline Leaf) -> Outline Leaf) (before : List (Outline Leaf))
    (arg : Outline Leaf) (frames : List (Frame Leaf)) (rest : List (Lexeme Leaf)) :
    run (.holding arg) (.called make before :: frames)
        (Outline.furtherArgumentsThen signed others (.closeParen :: rest)) =
      run (.holding (make (before ++ arg :: others))) frames rest := by
  induction others generalizing before arg with
  | nil => rfl
  | cons next others inductionHypothesis =>
      have parts := List.forall_mem_cons.mp each
      have stops := followingRank_furtherArgumentsThen signed others rest
      have read := parts.1 (.called make (before ++ [arg]) :: frames) _ trivial
        (stops ▸ Nat.zero_le _)
      have following := inductionHypothesis parts.2 (before ++ [arg]) next
      rw [List.append_assoc, List.singleton_append] at following
      exact read.trans following

theorem run_argumentsThen {args : List (Outline Leaf)}
    (each : forall arg, arg ∈ args -> Reads signed arg)
    (make : List (Outline Leaf) -> Outline Leaf) (frames : List (Frame Leaf))
    (rest : List (Lexeme Leaf)) :
    run (.naming make) frames
        (.openParen :: Outline.argumentsThen signed args (.closeParen :: rest)) =
      run (.holding (make args)) frames rest := by
  cases args with
  | nil => rfl
  | cons arg others =>
      have parts := List.forall_mem_cons.mp each
      have stops := followingRank_furtherArgumentsThen signed others rest
      have read := parts.1 (.called make [] :: frames) _ trivial (stops ▸ Nat.zero_le _)
      exact read.trans (run_furtherArgumentsThen parts.2 make [] arg frames rest)

theorem reads (signed : Leaf -> Bool) (outline : Outline Leaf) : Reads signed outline := by
  induction outline with
  | literal value => intro frames rest _ _; rfl
  | param slot => intro frames rest _ _; rfl
  | unary op operand operandHypothesis =>
      intro frames rest admits stops
      have opened : run .expecting frames ((Outline.unary op operand).lexemesThen signed rest) =
          run .expecting (.prefixed op :: frames)
            (Outline.enclose (operand.needsParensAfter signed op)
              (fun after => operand.lexemesThen signed after) rest) := by
        simp only [Outline.lexemesThen, run, step, UnaryOp.ofSign?_sign, Option.map_some]
      have bare : operand.needsParensAfter signed op = false ->
          Precedence.unary.rank ≤ operand.rank signed := by
        intro unneeded
        have tight := (Bool.or_eq_false_iff.mp unneeded).1
        exact Nat.le_of_not_lt (of_decide_eq_false tight)
      rw [opened, operandHypothesis.run_enclose, run_holding_prefixed]
      intro unneeded
      exact ⟨bare unneeded, Nat.le_trans stops (bare unneeded)⟩
  | binary op left right leftHypothesis rightHypothesis =>
      intro frames rest admits stops
      have operator : followingRank (.blank :: .sign op.sign :: .blank ::
          Outline.enclose (op.enclosesRight (right.rank signed))
            (fun after => right.lexemesThen signed after) rest) = op.precedence.rank := by
        simp only [followingRank, BinaryOp.ofSign?_sign]
      have taken : forall lexemes : List (Lexeme Leaf),
          run (.holding left) frames (.blank :: .sign op.sign :: .blank :: lexemes) =
            run .expecting (.infixed left op :: frames) lexemes := by
        intro lexemes
        simp only [run, step, BinaryOp.ofSign?_sign, Option.map_some, settle_of_admits admits]
      rw [Outline.lexemesThen, leftHypothesis.run_enclose, taken, rightHypothesis.run_enclose,
        run_holding_infixed stops]
      · -- A bare right operand binds tighter, so whatever may follow the whole
        -- operation may follow the operand.
        intro unneeded
        have tight := BinaryOp.lt_of_enclosesRight_eq_false unneeded
        exact ⟨tight, Nat.le_trans stops (Nat.le_of_lt tight)⟩
      · intro unneeded
        have tight := BinaryOp.le_of_enclosesLeft_eq_false unneeded
        exact ⟨admits.mono tight, operator ▸ tight⟩
  | call callee args argsHypothesis =>
      intro frames rest _ _
      exact run_argumentsThen argsHypothesis (.call callee) frames rest
  | computed id args idHypothesis argsHypothesis =>
      intro frames rest _ _
      have read := idHypothesis (.bracketed :: frames) (.closeBracket :: .openParen ::
        Outline.argumentsThen signed args (.closeParen :: rest)) trivial (Nat.zero_le _)
      exact read.trans (run_argumentsThen argsHypothesis (.computed id) frames rest)

end Reader

def Outline.read? {Leaf : Type} (lexemes : List (Lexeme Leaf)) : Option (Outline Leaf) :=
  Reader.run .expecting [] lexemes

theorem Outline.read?_lexemes {Leaf : Type} (signed : Leaf -> Bool) (outline : Outline Leaf) :
    read? (outline.lexemes signed) = some outline := by
  have read := Reader.reads signed outline [] [] trivial (Nat.zero_le _)
  exact read

theorem Outline.lexemes_injective {Leaf : Type} (signed : Leaf -> Bool) :
    Function.Injective (lexemes signed) := by
  intro first second same
  apply Option.some.inj
  rw [← read?_lexemes signed first, same, read?_lexemes]

end Rpn
