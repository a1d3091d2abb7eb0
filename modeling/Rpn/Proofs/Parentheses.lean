import Rpn.Proofs.Grammar
import Rpn.Expr.Infix

/-!
# Parentheses of infix text

The words of a tree are the tokens of its infix text without the blanks.  They
are read as the tree, and every pair of parentheses that is there because an
operand binds too loosely for its place is needed: without this one pair the
words are not read as the tree (`Expr.parentheses_sufficient_and_necessary`).

Why a pair is needed shows where the operand stands.  Without the pair, the
words around the operand still divide as before, because the words of a tree
without any parentheses are always the same and the other parentheses come in
pairs.  So the operand itself would have to be read where it binds too loosely,
and there it can only be read in parentheses.
-/

namespace Rpn

theorem Precedence.unary_rank_le_atomRank : unary.rank ≤ atomRank := by
  decide

theorem BinaryOp.lt_of_enclosesLeft {op : BinaryOp} {rank : Nat}
    (enclosed : op.enclosesLeft rank = true) : rank < op.precedence.rank := by
  have groups : op.precedence.associativity = .left := by cases op <;> rfl
  rw [enclosesLeft, groups] at enclosed
  simpa using enclosed

theorem BinaryOp.le_of_enclosesRight {op : BinaryOp} {rank : Nat}
    (enclosed : op.enclosesRight rank = true) : rank ≤ op.precedence.rank := by
  rcases Bool.or_eq_true_iff.mp enclosed with looser | equal
  · exact Nat.le_of_lt (of_decide_eq_true looser)
  · exact Nat.le_of_eq (eq_of_beq (Bool.and_eq_true_iff.mp equal).1)

namespace Expr

/-! ## Structure -/

mutual

/-- A tree as its words name it: the constant identifier of a function is part
of the name. -/
def outline : Expr -> Outline Constant
  | const constant => .literal constant
  | param slot => .param slot
  | unary op operand => .unary op operand.outline
  | binary op left right => .binary op left.outline right.outline
  | function id args =>
    match id.int? with
    | some value => .call (.function value) (outlineOfAll args)
    | none => .computed id.outline (outlineOfAll args)
  | command bank id args => .call (.command bank id) (outlineOfAll args)

def outlineOfAll : List Expr -> List (Outline Constant)
  | [] => []
  | expr :: others => expr.outline :: outlineOfAll others

end

theorem outlineOfAll_eq_map (args : List Expr) : outlineOfAll args = args.map outline := by
  induction args with
  | nil => rfl
  | cons arg args inductionHypothesis => rw [outlineOfAll, inductionHypothesis, List.map_cons]

/-! ## Words -/

/-- The tokens but for the blanks. -/
def blankless (tokens : List Token) : List Token :=
  tokens.filter fun token => token != .blank

/-- The words of a tree. -/
def words (expr : Expr) : List Token :=
  blankless expr.tokens

/-- The words of a tree in parentheses if these are needed. -/
def wordsWithin (needed : Bool) (expr : Expr) : List Token :=
  Token.wrap needed.toNat expr.words

theorem wordsWithin_false (expr : Expr) : expr.wordsWithin false = expr.words :=
  Token.wrap_zero expr.words

theorem wordsWithin_true (expr : Expr) :
    expr.wordsWithin true = .openParen :: expr.words ++ [.closeParen] :=
  rfl

/-- What comes before the arguments of a function. -/
def heading (id : Expr) : List Token :=
  match id.int? with
  | some value => [.function value]
  | none => .computedFunction :: .openBracket :: id.words ++ [.closeBracket]

/-- Whether the words are those of the tree, whatever tokens follow. -/
def Writes (expr : Expr) (words : List Token) : Prop :=
  forall rest, blankless (expr.tokensThen rest) = words ++ blankless rest

theorem Writes.words_eq {expr : Expr} {words : List Token} (writes : expr.Writes words) :
    expr.words = words :=
  (writes []).trans (List.append_nil words)

theorem blankless_cons {token : Token} (word : (token != .blank) = true) (rest : List Token) :
    blankless (token :: rest) = token :: blankless rest :=
  List.filter_cons_of_pos word

theorem blankless_blank (rest : List Token) : blankless (.blank :: rest) = blankless rest :=
  rfl

theorem blankless_enclose {expr : Expr} (writes : expr.Writes expr.words) (needed : Bool)
    (rest : List Token) :
    blankless (enclose needed (fun after => expr.tokensThen after) rest) =
      expr.wordsWithin needed ++ blankless rest := by
  cases needed with
  | false => rw [wordsWithin_false, enclose, if_neg nofun, writes]
  | true =>
      rw [wordsWithin_true, enclose, if_pos rfl, blankless_cons rfl, writes, blankless_cons rfl]
      simp only [List.cons_append, List.append_assoc, List.nil_append]

theorem blankless_furtherArgumentsThen {args : List Expr}
    (each : forall arg, arg ∈ args -> arg.Writes arg.words) (rest : List Token) :
    blankless (furtherArgumentsThen args rest) =
      (args.map words).flatMap (fun words => .comma :: words) ++ blankless rest := by
  induction args with
  | nil => rfl
  | cons arg args inductionHypothesis =>
      have writes := List.forall_mem_cons.mp each
      have first := writes.1 (furtherArgumentsThen args rest)
      rw [inductionHypothesis writes.2] at first
      rw [List.map_cons, List.flatMap_cons, List.append_assoc]
      exact congrArg (List.cons Token.comma) first

theorem blankless_argumentsThen {args : List Expr}
    (each : forall arg, arg ∈ args -> arg.Writes arg.words) (rest : List Token) :
    blankless (.openParen :: argumentsThen args (.closeParen :: rest)) =
      Token.arguments (args.map words) ++ blankless rest := by
  cases args with
  | nil => rfl
  | cons arg args =>
      have writes := List.forall_mem_cons.mp each
      have first := writes.1 (furtherArgumentsThen args (.closeParen :: rest))
      rw [blankless_furtherArgumentsThen writes.2] at first
      rw [List.map_cons, Token.arguments, Token.intercalate_comma_cons]
      simp only [List.cons_append, List.append_assoc]
      exact congrArg (List.cons Token.openParen) first

theorem writes_unary {op : UnaryOp} {operand : Expr} (writes : operand.Writes operand.words) :
    (unary op operand).Writes
      (.sign op.sign :: operand.wordsWithin (operand.needsParensAfter op)) := by
  intro rest
  rw [tokensThen, blankless_cons rfl, blankless_enclose writes, List.cons_append]

theorem writes_binary {op : BinaryOp} {left right : Expr} (leftWrites : left.Writes left.words)
    (rightWrites : right.Writes right.words) :
    (binary op left right).Writes (left.wordsWithin (op.enclosesLeft left.rank) ++
      .sign op.sign :: right.wordsWithin (op.enclosesRight right.rank)) := by
  intro rest
  rw [tokensThen, blankless_enclose leftWrites, blankless_blank, blankless_cons rfl,
    blankless_blank, blankless_enclose rightWrites, List.append_assoc, List.cons_append]

theorem writes_function {id : Expr} {args : List Expr} (idWrites : id.Writes id.words)
    (each : forall arg, arg ∈ args -> arg.Writes arg.words) :
    (function id args).Writes (id.heading ++ Token.arguments (args.map words)) := by
  intro rest
  have call := blankless_argumentsThen each rest
  cases found : id.int? with
  | some value =>
      simp only [tokensThen, heading, found]
      exact congrArg (List.cons (Token.function value)) call
  | none =>
      have following := idWrites (.closeBracket :: .openParen :: argumentsThen args
        (.closeParen :: rest))
      simp only [tokensThen, heading, found, List.cons_append, List.append_assoc]
      rw [blankless_cons rfl, blankless_cons rfl, following, blankless_cons rfl, call]
      rfl

theorem writes_command {bank : UInt8} {id : Int32} {args : List Expr}
    (each : forall arg, arg ∈ args -> arg.Writes arg.words) :
    (command bank id args).Writes (.command bank id :: Token.arguments (args.map words)) := by
  intro rest
  rw [tokensThen, blankless_cons rfl, blankless_argumentsThen each, List.cons_append]

theorem writes (expr : Expr) : expr.Writes expr.words := by
  induction expr with
  | const constant => intro rest; rfl
  | param slot => intro rest; rfl
  | unary op operand operandHypothesis =>
      have writes : (unary op operand).Writes _ := writes_unary operandHypothesis
      rwa [writes.words_eq]
  | binary op left right leftHypothesis rightHypothesis =>
      have writes : (binary op left right).Writes _ := writes_binary leftHypothesis rightHypothesis
      rwa [writes.words_eq]
  | function id args idHypothesis argsHypothesis =>
      have writes := writes_function idHypothesis argsHypothesis
      rwa [writes.words_eq]
  | command bank id args argsHypothesis =>
      have writes : (command bank id args).Writes _ := writes_command argsHypothesis
      rwa [writes.words_eq]

theorem words_unary (op : UnaryOp) (operand : Expr) :
    (unary op operand).words =
      .sign op.sign :: operand.wordsWithin (operand.needsParensAfter op) :=
  (writes_unary operand.writes).words_eq

theorem words_binary (op : BinaryOp) (left right : Expr) :
    (binary op left right).words = left.wordsWithin (op.enclosesLeft left.rank) ++
      .sign op.sign :: right.wordsWithin (op.enclosesRight right.rank) :=
  (writes_binary left.writes right.writes).words_eq

theorem words_function (id : Expr) (args : List Expr) :
    (function id args).words = id.heading ++ Token.arguments (args.map words) :=
  (writes_function id.writes fun arg _ => arg.writes).words_eq

theorem words_command (bank : UInt8) (id : Int32) (args : List Expr) :
    (command bank id args).words = .command bank id :: Token.arguments (args.map words) :=
  (writes_command fun arg _ => arg.writes).words_eq

/-! ## Reading -/

/-- A tree with its words. -/
def part (expr : Expr) : List Token × Outline Constant :=
  (expr.words, expr.outline)

theorem map_fst_part (args : List Expr) : (args.map part).map Prod.fst = args.map words :=
  List.map_map

theorem map_snd_part (args : List Expr) : (args.map part).map Prod.snd = outlineOfAll args :=
  List.map_map.trans (outlineOfAll_eq_map args).symm

/-- Whether the words of a tree are read as it wherever it binds tight
enough. -/
def ReadsBack (expr : Expr) : Prop :=
  forall rank, rank ≤ expr.rank -> Phrase rank expr.words expr.outline

theorem ReadsBack.phrase {expr : Expr} (readsBack : expr.ReadsBack) :
    Phrase 0 expr.words expr.outline :=
  readsBack 0 (Nat.zero_le _)

theorem ReadsBack.phrase_wordsWithin {expr : Expr} (readsBack : expr.ReadsBack) {needed : Bool}
    {rank : Nat} (bare : needed = false -> rank ≤ expr.rank) :
    Phrase rank (expr.wordsWithin needed) expr.outline := by
  cases needed with
  | false =>
      rw [wordsWithin_false]
      exact readsBack rank (bare rfl)
  | true =>
      rw [wordsWithin_true]
      exact .grouped rank readsBack.phrase

theorem phrase_of_mem_part {args : List Expr} (each : forall arg, arg ∈ args -> arg.ReadsBack) :
    forall part, part ∈ args.map Expr.part -> Phrase 0 part.1 part.2 := by
  intro part member
  rcases List.mem_map.mp member with ⟨arg, argMember, rfl⟩
  exact (each arg argMember).phrase

theorem le_rank_of_needsParensAfter_eq_false {op : UnaryOp} {operand : Expr}
    (bare : operand.needsParensAfter op = false) : Precedence.unary.rank ≤ operand.rank := by
  have tight := (Bool.or_eq_false_iff.mp bare).1
  exact Nat.le_of_not_lt (of_decide_eq_false tight)

theorem readsBack (expr : Expr) : expr.ReadsBack := by
  induction expr with
  | const constant => intro rank _; exact .literal rank constant
  | param slot => intro rank _; exact .param rank slot
  | unary op operand operandHypothesis =>
      intro rank loose
      rw [words_unary]
      exact .unary op loose
        (operandHypothesis.phrase_wordsWithin le_rank_of_needsParensAfter_eq_false)
  | binary op left right leftHypothesis rightHypothesis =>
      intro rank loose
      rw [words_binary]
      exact .binary op loose
        (leftHypothesis.phrase_wordsWithin BinaryOp.le_of_enclosesLeft_eq_false)
        (rightHypothesis.phrase_wordsWithin BinaryOp.lt_of_enclosesRight_eq_false)
  | function id args idHypothesis argsHypothesis =>
      intro rank _
      have parts := phrase_of_mem_part argsHypothesis
      rw [words_function, ← map_fst_part]
      cases found : id.int? with
      | some value =>
          simp only [heading, outline, found, ← map_snd_part]
          exact .call rank (.function value) _ parts
      | none =>
          simp only [heading, outline, found, ← map_snd_part, List.append_assoc, List.cons_append]
          exact .computed rank _ idHypothesis.phrase parts
  | command bank id args argsHypothesis =>
      intro rank _
      rw [words_command, outline, ← map_fst_part, ← map_snd_part]
      exact .call rank (.command bank id) _ (phrase_of_mem_part argsHypothesis)

/-- An operation is not read from its own words where it binds too loosely. -/
theorem le_rank_of_phrase {expr : Expr} {rank : Nat} (phrase : Phrase rank expr.words expr.outline)
    (tight : rank ≤ Precedence.unary.rank) : rank ≤ expr.rank := by
  cases expr with
  | binary op left right =>
      rw [words_binary, ← Token.wrap_zero (_ ++ _)] at phrase
      exact (phrase.operands_of_binary (left.readsBack.phrase.spells.wrap _)).2.2 rfl
  | const constant =>
      rw [Expr.rank]
      split
      · exact tight
      · exact Nat.le_trans tight Precedence.unary_rank_le_atomRank
  | unary op operand => exact tight
  | _ => exact Nat.le_trans tight Precedence.unary_rank_le_atomRank

/-! ## Needed parentheses -/

/-- The words of a call up to one argument, by what comes before the arguments
and those before this one. -/
def leading (front : List Token) (before : List Expr) : List Token :=
  front ++ .openParen :: before.flatMap (fun arg => arg.words ++ [.comma])

/-- The words of a call from one argument on, by the arguments after it. -/
def trailing (after : List Expr) : List Token :=
  after.flatMap (fun arg => .comma :: arg.words) ++ [.closeParen]

/-- `Slot expr enclosed before part after`: the tree has the part written
between these words, and in parentheses of its own if it is enclosed. -/
inductive Slot : Expr -> Bool -> List Token -> Expr -> List Token -> Prop
  | operand (op : UnaryOp) (operand : Expr) :
      Slot (.unary op operand) (operand.needsParensAfter op) [.sign op.sign] operand []
  | left (op : BinaryOp) (left right : Expr) :
      Slot (.binary op left right) (op.enclosesLeft left.rank) [] left
        (.sign op.sign :: right.wordsWithin (op.enclosesRight right.rank))
  | right (op : BinaryOp) (left right : Expr) :
      Slot (.binary op left right) (op.enclosesRight right.rank)
        (left.wordsWithin (op.enclosesLeft left.rank) ++ [.sign op.sign]) right []
  | id {id : Expr} (computed : id.int? = none) (args : List Expr) :
      Slot (.function id args) false [.computedFunction, .openBracket] id
        (.closeBracket :: Token.arguments (args.map words))
  | functionArg (id : Expr) (before : List Expr) (arg : Expr) (after : List Expr) :
      Slot (.function id (before ++ arg :: after)) false (leading id.heading before) arg
        (trailing after)
  | commandArg (bank : UInt8) (id : Int32) (before : List Expr) (arg : Expr) (after : List Expr) :
      Slot (.command bank id (before ++ arg :: after)) false (leading [.command bank id] before) arg
        (trailing after)

/-- `Encloses expr before operand after`: somewhere in the tree, the operand is
written in parentheses between these words because it binds too loosely for its
place. -/
inductive Encloses : Expr -> List Token -> Expr -> List Token -> Prop
  | operand {op : UnaryOp} {operand : Expr} (loose : operand.rank < Precedence.unary.rank) :
      Encloses (.unary op operand) [.sign op.sign] operand []
  | left {op : BinaryOp} {left right : Expr} (loose : op.enclosesLeft left.rank = true) :
      Encloses (.binary op left right) [] left
        (.sign op.sign :: right.wordsWithin (op.enclosesRight right.rank))
  | right {op : BinaryOp} {left right : Expr} (loose : op.enclosesRight right.rank = true) :
      Encloses (.binary op left right)
        (left.wordsWithin (op.enclosesLeft left.rank) ++ [.sign op.sign]) right []
  | within {expr part operand : Expr} {enclosed : Bool} {before after inside beyond : List Token}
      (slot : Slot expr enclosed before part after)
      (encloses : Encloses part inside operand beyond) :
      Encloses expr (before ++ List.replicate enclosed.toNat .openParen ++ inside) operand
        (beyond ++ List.replicate enclosed.toNat .closeParen ++ after)

end Expr

theorem Spells.unwrap {tree : Outline Constant} {before words after : List Token}
    (spells : Spells tree (before ++ .openParen :: words ++ .closeParen :: after)) :
    Spells tree (before ++ words ++ after) where
  spine := by
    rw [← spells.spine]
    simp [Token.visible]
  balanced := by
    have balanced := spells.balanced
    simp [Token.Balanced] at balanced ⊢
    omega

namespace Expr

/-- The arguments of a call, one of them with other words. -/
def partsAround (before : List Expr) (words : List Token) (arg : Expr) (after : List Expr) :
    List (List Token × Outline Constant) :=
  before.map Expr.part ++ (words, arg.outline) :: after.map Expr.part

section

variable {before after : List Expr} {arg : Expr} {words : List Token}

theorem arguments_map_words (before : List Expr) (words : List Token) (after : List Expr)
    (front : List Token) :
    front ++ Token.arguments (before.map Expr.words ++ words :: after.map Expr.words) =
      leading front before ++ words ++ trailing after := by
  rw [Token.arguments_append_cons, List.flatMap_map, List.flatMap_map, leading, trailing]
  simp only [List.append_assoc, List.cons_append]

theorem arguments_partsAround (front : List Token) :
    leading front before ++ words ++ trailing after =
      front ++ Token.arguments ((partsAround before words arg after).map Prod.fst) := by
  rw [partsAround, List.map_append, List.map_cons, map_fst_part, map_fst_part, arguments_map_words]

theorem map_snd_partsAround :
    (partsAround before words arg after).map Prod.snd = outlineOfAll (before ++ arg :: after) := by
  rw [partsAround, List.map_append, List.map_cons, map_snd_part, map_snd_part,
    outlineOfAll_eq_map, outlineOfAll_eq_map, outlineOfAll_eq_map, List.map_append, List.map_cons]

theorem spells_partsAround (spells : Spells arg.outline words) :
    forall part, part ∈ partsAround before words arg after -> Spells part.2 part.1 := by
  have written : forall args : List Expr,
      forall part, part ∈ args.map Expr.part -> Spells part.2 part.1 :=
    fun args part member => (phrase_of_mem_part (fun arg _ => arg.readsBack) part member).spells
  intro part member
  rcases List.mem_append.mp member with first | later
  · exact written before part first
  · rcases List.mem_cons.mp later with equal | last
    · rwa [equal]
    · exact written after part last

theorem mem_partsAround : (words, arg.outline) ∈ partsAround before words arg after :=
  List.mem_append_right _ List.mem_cons_self

end

theorem Slot.words_eq {expr part : Expr} {enclosed : Bool} {before after : List Token}
    (slot : Slot expr enclosed before part after) :
    expr.words = before ++ part.wordsWithin enclosed ++ after := by
  cases slot with
  | operand op operand => rw [words_unary, List.append_nil, List.singleton_append]
  | left op left right => rw [words_binary, List.nil_append]
  | right op left right =>
      rw [words_binary, List.append_nil, List.append_assoc, List.singleton_append]
  | id computed args =>
      simp only [words_function, heading, computed, wordsWithin_false, List.cons_append,
        List.append_assoc, List.nil_append]
  | functionArg id before arg after =>
      rw [words_function, List.map_append, List.map_cons, arguments_map_words, wordsWithin_false]
  | commandArg bank id before arg after =>
      rw [words_command, ← List.singleton_append, List.map_append, List.map_cons,
        arguments_map_words, wordsWithin_false]

/-- Where the words of a part stand in a phrase of the tree, they are a phrase
of the part. -/
theorem Slot.phrase {expr part : Expr} {enclosed : Bool} {before after : List Token}
    (slot : Slot expr enclosed before part after) {rank depth : Nat} {words : List Token}
    (spells : Spells part.outline words)
    (phrase : Phrase rank (Token.wrap depth (before ++ words ++ after)) expr.outline) :
    Phrase 0 words part.outline := by
  cases slot with
  | operand op operand =>
      rw [List.append_nil, List.singleton_append] at phrase
      exact phrase.operand_of_unary.mono (Nat.zero_le _)
  | left op left right =>
      rw [List.nil_append] at phrase
      exact (phrase.operands_of_binary spells).1.mono (Nat.zero_le _)
  | right op left right =>
      rw [List.append_nil, List.append_assoc, List.singleton_append] at phrase
      have leftSpells := left.readsBack.phrase.spells.wrap (op.enclosesLeft left.rank).toNat
      exact (phrase.operands_of_binary leftSpells).2.1.mono (Nat.zero_le _)
  | id computed args =>
      have each : forall part, part ∈ args.map Expr.part -> Phrase 0 part.1 part.2 :=
        phrase_of_mem_part fun arg _ => arg.readsBack
      simp only [outline, computed, ← map_fst_part, ← map_snd_part] at phrase
      exact (phrase.parts_of_computed spells fun part member => (each part member).spells).1
  | functionArg id before _ after =>
      have each : forall other, other ∈ partsAround before words part after ->
          Spells other.2 other.1 := spells_partsAround spells
      rw [@arguments_partsAround _ _ part] at phrase
      cases found : id.int? with
      | some value =>
          simp only [outline, heading, found,
            ← @map_snd_partsAround before after part words] at phrase
          exact phrase.arguments_of_call (.function value) each _ mem_partsAround
      | none =>
          simp only [outline, heading, found, ← @map_snd_partsAround before after part words,
            List.append_assoc, List.singleton_append] at phrase
          exact (phrase.parts_of_computed id.readsBack.phrase.spells each).2 _ mem_partsAround
  | commandArg bank id before _ after =>
      have each : forall other, other ∈ partsAround before words part after ->
          Spells other.2 other.1 := spells_partsAround spells
      rw [@arguments_partsAround _ _ part, outline,
        ← @map_snd_partsAround before after part words] at phrase
      exact phrase.arguments_of_call (.command bank id) each _ mem_partsAround

theorem Encloses.words_eq {expr operand : Expr} {before after : List Token}
    (encloses : Encloses expr before operand after) :
    expr.words = before ++ .openParen :: operand.words ++ .closeParen :: after := by
  induction encloses with
  | @operand op operand loose =>
      have needed : operand.needsParensAfter op = true := by
        rw [needsParensAfter, decide_eq_true loose, Bool.true_or]
      rw [words_unary, needed, wordsWithin_true]
      rfl
  | @left op left right loose =>
      rw [words_binary, loose, wordsWithin_true]
      simp only [List.cons_append, List.append_assoc, List.nil_append]
  | @right op left right loose =>
      rw [words_binary, loose, wordsWithin_true]
      simp only [List.cons_append, List.append_assoc, List.nil_append]
  | within slot encloses inductionHypothesis =>
      rw [slot.words_eq, wordsWithin, inductionHypothesis, Token.wrap]
      simp only [List.append_assoc, List.cons_append]

theorem Encloses.spells {expr operand : Expr} {before after : List Token}
    (encloses : Encloses expr before operand after) :
    Spells expr.outline (before ++ operand.words ++ after) := by
  have spells := expr.readsBack.phrase.spells
  rw [encloses.words_eq] at spells
  exact spells.unwrap

theorem Encloses.not_phrase {expr operand : Expr} {before after : List Token}
    (encloses : Encloses expr before operand after) (rank depth : Nat) :
    ¬ Phrase rank (Token.wrap depth (before ++ operand.words ++ after)) expr.outline := by
  intro phrase
  induction encloses generalizing rank depth with
  | @operand op operand loose =>
      rw [List.append_nil, List.singleton_append] at phrase
      have tight := le_rank_of_phrase phrase.operand_of_unary (Nat.le_refl _)
      exact Nat.not_le_of_lt loose tight
  | @left op left right loose =>
      rw [List.nil_append] at phrase
      have tight := le_rank_of_phrase (phrase.operands_of_binary left.readsBack.phrase.spells).1
        (Nat.le_of_lt op.rank_lt_unary)
      exact Nat.not_le_of_lt (BinaryOp.lt_of_enclosesLeft loose) tight
  | @right op left right loose =>
      rw [List.append_nil, List.append_assoc, List.singleton_append] at phrase
      have leftSpells := left.readsBack.phrase.spells.wrap (op.enclosesLeft left.rank).toNat
      have tight := le_rank_of_phrase (phrase.operands_of_binary leftSpells).2.1 op.rank_lt_unary
      exact Nat.not_lt_of_le (BinaryOp.le_of_enclosesRight loose) tight
  | @within expr part operand enclosed before after inside beyond slot encloses
      inductionHypothesis =>
      have spells := encloses.spells.wrap enclosed.toNat
      have divided :
          before ++ List.replicate enclosed.toNat .openParen ++ inside ++ operand.words ++
              (beyond ++ List.replicate enclosed.toNat .closeParen ++ after) =
            before ++ Token.wrap enclosed.toNat (inside ++ operand.words ++ beyond) ++ after := by
        simp only [Token.wrap, List.append_assoc]
      rw [divided] at phrase
      exact inductionHypothesis 0 enclosed.toNat (slot.phrase spells phrase)

/-- The words of a tree are read as it and as nothing else, and without one
pair of the parentheses that stand for precedence or grouping they are not read
as it. -/
theorem parentheses_sufficient_and_necessary (expr : Expr) :
    (forall tree, Phrase 0 expr.words tree ↔ tree = expr.outline) ∧
      forall before operand after, Encloses expr before operand after ->
        expr.words = before ++ .openParen :: operand.words ++ .closeParen :: after ∧
          ¬ Phrase 0 (before ++ operand.words ++ after) expr.outline := by
  have read : Phrase 0 expr.words expr.outline := expr.readsBack.phrase
  constructor
  · intro tree
    constructor
    · intro phrase
      exact phrase.unique read
    · rintro rfl
      exact read
  · intro before operand after encloses
    have missing := encloses.not_phrase 0 0
    rw [Token.wrap_zero] at missing
    exact ⟨encloses.words_eq, missing⟩

/-- A sum in two negations in a product.  The parentheses of the inner negation
are there because of its sign alone. -/
def negatedSum : Expr :=
  .binary .mul (.unary .neg (.unary .neg (.binary .add (.param 0) (.param 1)))) (.param 2)

theorem parentheses_sufficient_and_necessary_negatedSum :
    negatedSum.words =
        [.sign .minus, .openParen, .sign .minus, .openParen, .param 0, .sign .plus, .param 1,
          .closeParen, .closeParen, .sign .star, .param 2] ∧
      ¬ Phrase 0
        [.sign .minus, .openParen, .sign .minus, .param 0, .sign .plus, .param 1,
          .closeParen, .sign .star, .param 2] negatedSum.outline := by
  have innermost : Encloses (.unary .neg (.binary .add (.param 0) (.param 1))) _ _ _ :=
    .operand (by decide)
  have negated := Encloses.within (.operand .neg _) innermost
  have whole : Encloses negatedSum _ _ _ := .within (.left .mul _ _) negated
  exact (parentheses_sufficient_and_necessary negatedSum).2 _ _ _ whole

end Expr
end Rpn
