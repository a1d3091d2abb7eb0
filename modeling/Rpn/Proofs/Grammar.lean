import Mathlib.Data.List.Basic
import Rpn.Proofs.Outline
import Rpn.Token

/-!
# The grammar of infix text

The tokens of infix text other than blanks are its words.  `Phrase` is the
grammar that the precedence table stands for: an operand is an atom or stands
in parentheses, or it is an operation that binds at least as tight as its
place asks for.  A literal is an atom, whatever its sign.  Nothing here depends
on how infix text is written.

The words of a tree leave only one choice, how many parentheses stand where.
Main statements: no words are read as two trees (`Phrase.unique`), and in words
that are read as an operation, the words between its own ones are read as its
operands (`Phrase.operand_of_unary`, `Phrase.operands_of_binary`,
`Phrase.arguments_of_call`, `Phrase.parts_of_computed`).
-/

namespace Rpn

/-! ## Words -/

def Callee.token : Callee -> Token
  | function id => .function id
  | command bank id => .command bank id

namespace Token

/-- Words in a number of pairs of parentheses. -/
def wrap (depth : Nat) (words : List Token) : List Token :=
  List.replicate depth .openParen ++ words ++ List.replicate depth .closeParen

/-- The arguments of a call, in their parentheses and with commas between
them. -/
def arguments (parts : List (List Token)) : List Token :=
  .openParen :: List.intercalate [.comma] parts ++ [.closeParen]

theorem wrap_zero (words : List Token) : wrap 0 words = words :=
  List.append_nil words

theorem wrap_succ (depth : Nat) (words : List Token) :
    wrap (depth + 1) words = .openParen :: wrap depth words ++ [.closeParen] := by
  rw [wrap, wrap, List.replicate_succ, List.replicate_succ', List.cons_append, List.cons_append,
    List.cons_append, List.append_assoc _ _ [closeParen]]

theorem arguments_eq_wrap (parts : List (List Token)) :
    arguments parts = wrap 1 (List.intercalate [.comma] parts) :=
  rfl

theorem wrap_append_cons (depth : Nat) (before : List Token) (mark : Token) (after : List Token) :
    wrap depth (before ++ mark :: after) =
      List.replicate depth .openParen ++ before ++
        mark :: (after ++ List.replicate depth .closeParen) := by
  simp only [wrap, List.append_assoc, List.cons_append]

end Token

/-! ## Phrases -/

/-- `Phrase rank words tree`: where an operand is to bind at least as tight as
the rank, the words are read as the tree.  Unary operators bind tighter than
every binary one and may be stacked.  Every binary operator groups to the left,
so its right operand has to bind tighter than the operator itself. -/
inductive Phrase : Nat -> List Token -> Outline Constant -> Prop
  | literal (rank : Nat) (constant : Constant) :
      Phrase rank [.literal constant] (.literal constant)
  | param (rank : Nat) (slot : UInt8) : Phrase rank [.param slot] (.param slot)
  | grouped (rank : Nat) {words : List Token} {tree : Outline Constant}
      (inner : Phrase 0 words tree) :
      Phrase rank (.openParen :: words ++ [.closeParen]) tree
  | unary {rank : Nat} (op : UnaryOp) {words : List Token} {tree : Outline Constant}
      (loose : rank ≤ Precedence.unary.rank)
      (operand : Phrase Precedence.unary.rank words tree) :
      Phrase rank (.sign op.sign :: words) (.unary op tree)
  | binary {rank : Nat} (op : BinaryOp) {before after : List Token}
      {first second : Outline Constant} (loose : rank ≤ op.precedence.rank)
      (left : Phrase op.precedence.rank before first)
      (right : Phrase (op.precedence.rank + 1) after second) :
      Phrase rank (before ++ .sign op.sign :: after) (.binary op first second)
  | call (rank : Nat) (callee : Callee) (parts : List (List Token × Outline Constant))
      (args : forall part, part ∈ parts -> Phrase 0 part.1 part.2) :
      Phrase rank (callee.token :: Token.arguments (parts.map Prod.fst))
        (.call callee (parts.map Prod.snd))
  | computed (rank : Nat) {words : List Token} {tree : Outline Constant}
      (parts : List (List Token × Outline Constant)) (id : Phrase 0 words tree)
      (args : forall part, part ∈ parts -> Phrase 0 part.1 part.2) :
      Phrase rank (.computedFunction :: .openBracket :: words ++
          .closeBracket :: Token.arguments (parts.map Prod.fst))
        (.computed tree (parts.map Prod.snd))

/-- What is read where tight operands are expected is read the same where
looser ones may stand. -/
theorem Phrase.mono {rank lower : Nat} {words : List Token} {tree : Outline Constant}
    (phrase : Phrase rank words tree) (le : lower ≤ rank) : Phrase lower words tree := by
  cases phrase with
  | literal _ constant => exact .literal lower constant
  | param _ slot => exact .param lower slot
  | grouped _ inner => exact .grouped lower inner
  | unary op loose operand => exact .unary op (Nat.le_trans le loose) operand
  | binary op loose left right => exact .binary op (Nat.le_trans le loose) left right
  | call _ callee parts args => exact .call lower callee parts args
  | computed _ parts id args => exact .computed lower parts id args

/-! ## Uniqueness

The reader of lexemes reads every phrase as its tree, so there is only one. -/

def Token.lexeme : Token -> Lexeme Constant
  | literal constant => .literal constant
  | param slot => .param slot
  | function id => .name (.function id)
  | computedFunction => .computed
  | command bank id => .name (.command bank id)
  | sign mark => .sign mark
  | openParen => .openParen
  | closeParen => .closeParen
  | openBracket => .openBracket
  | closeBracket => .closeBracket
  | comma => .comma
  | blank => .blank

namespace Reader

/-- Whether the words are read as the tree where nothing around them takes
apart an operand of the rank. -/
def ReadsAt (rank : Nat) (words : List Token) (tree : Outline Constant) : Prop :=
  forall (frames : List (Frame Constant)) (rest : List (Lexeme Constant)),
    Admits frames rank -> followingRank rest ≤ rank ->
      run .expecting frames (words.map Token.lexeme ++ rest) = run (.holding tree) frames rest

theorem run_parts {parts : List (List Token × Outline Constant)}
    (each : forall part, part ∈ parts -> ReadsAt 0 part.1 part.2)
    (make : List (Outline Constant) -> Outline Constant) (before : List (Outline Constant))
    {part : List Token × Outline Constant} (reads : ReadsAt 0 part.1 part.2)
    (frames : List (Frame Constant)) (rest : List (Lexeme Constant)) :
    run .expecting (.called make before :: frames)
        ((List.intercalate [.comma] ((part :: parts).map Prod.fst)).map Token.lexeme ++
          .closeParen :: rest) =
      run (.holding (make (before ++ (part :: parts).map Prod.snd))) frames rest := by
  induction parts generalizing before part with
  | nil =>
      rw [List.map_singleton, List.map_singleton, List.intercalate_singleton]
      exact reads (.called make before :: frames) (.closeParen :: rest) trivial (Nat.zero_le 0)
  | cons next others inductionHypothesis =>
      have nextReads := List.forall_mem_cons.mp each
      have following := inductionHypothesis nextReads.2 (before ++ [part.2]) nextReads.1
      have read := reads (.called make before :: frames)
        (.comma :: ((List.intercalate [.comma] ((next :: others).map Prod.fst)).map Token.lexeme ++
          .closeParen :: rest)) trivial (Nat.zero_le 0)
      rw [List.append_assoc] at following
      simp only [List.map_cons, List.intercalate_cons_cons, List.map_append, List.append_assoc]
      exact read.trans following

theorem run_arguments {parts : List (List Token × Outline Constant)}
    (each : forall part, part ∈ parts -> ReadsAt 0 part.1 part.2)
    (make : List (Outline Constant) -> Outline Constant) (frames : List (Frame Constant))
    (rest : List (Lexeme Constant)) :
    run (.naming make) frames ((Token.arguments (parts.map Prod.fst)).map Token.lexeme ++ rest) =
      run (.holding (make (parts.map Prod.snd))) frames rest := by
  cases parts with
  | nil => rfl
  | cons part parts =>
      have reads := List.forall_mem_cons.mp each
      have read := run_parts reads.2 make [] reads.1 frames rest
      simp only [Token.arguments, List.map_append, List.map_cons, List.cons_append,
        List.append_assoc]
      exact read

theorem readsAt_of_phrase {rank : Nat} {words : List Token} {tree : Outline Constant}
    (phrase : Phrase rank words tree) : ReadsAt rank words tree := by
  induction phrase with
  | literal _ constant => intro frames rest _ _; rfl
  | param _ slot => intro frames rest _ _; rfl
  | grouped _ inner innerHypothesis =>
      intro frames rest _ _
      have read := innerHypothesis (.grouped :: frames) (.closeParen :: rest) trivial
        (Nat.zero_le 0)
      simp only [List.map_append, List.map_cons, List.cons_append, List.append_assoc]
      exact read
  | unary op loose operand operandHypothesis =>
      intro frames rest admits stops
      have read := operandHypothesis (.prefixed op :: frames) rest (Nat.le_refl _)
        (Nat.le_trans stops loose)
      rw [run_holding_prefixed] at read
      simp only [List.map_cons, Token.lexeme, List.cons_append, run, step, UnaryOp.ofSign?_sign,
        Option.map_some, read]
  | @binary rank op before after first second loose left right leftHypothesis rightHypothesis =>
      intro frames rest admits stops
      have following : followingRank (Lexeme.sign op.sign :: (after.map Token.lexeme ++ rest)) =
          op.precedence.rank := by
        simp only [followingRank, BinaryOp.ofSign?_sign]
      have leftRead := leftHypothesis frames _ (admits.mono loose) (Nat.le_of_eq following)
      have ends := Nat.le_trans stops loose
      have rightRead := rightHypothesis (.infixed first op :: frames) rest (Nat.lt_succ_self _)
        (Nat.le_succ_of_le ends)
      rw [run_holding_infixed ends] at rightRead
      rw [List.map_append, List.append_assoc, List.map_cons, List.cons_append]
      refine leftRead.trans ?_
      simp only [run, step, BinaryOp.ofSign?_sign, Option.map_some,
        settle_of_admits (admits.mono loose), rightRead]
  | call _ callee parts args argsHypothesis =>
      intro frames rest _ _
      have read := run_arguments argsHypothesis (.call callee) frames rest
      cases callee with
      | function id => exact read
      | command bank id => exact read
  | @computed _ words tree parts id args idHypothesis argsHypothesis =>
      intro frames rest _ _
      have read := idHypothesis (.bracketed :: frames)
        (.closeBracket :: ((Token.arguments (parts.map Prod.fst)).map Token.lexeme ++ rest)) trivial
        (Nat.zero_le 0)
      have call := run_arguments argsHypothesis (.computed tree) frames rest
      simp only [List.map_append, List.map_cons, List.cons_append, List.append_assoc]
      exact read.trans call

end Reader

theorem Phrase.read? {rank : Nat} {words : List Token} {tree : Outline Constant}
    (phrase : Phrase rank words tree) :
    Outline.read? (words.map Token.lexeme) = some tree := by
  have read := Reader.readsAt_of_phrase phrase [] [] trivial (Nat.zero_le rank)
  rwa [List.append_nil] at read

/-- No words are read as two trees. -/
theorem Phrase.unique {rank other : Nat} {words : List Token} {first second : Outline Constant}
    (one : Phrase rank words first) (another : Phrase other words second) : first = second :=
  Option.some.inj (one.read?.symm.trans another.read?)

/-! ## Spines

All phrases of one tree have the same words but for the parentheses. -/

/-- Whether a token is anything but a parenthesis. -/
def Token.visible : Token -> Bool
  | openParen | closeParen => false
  | _ => true

namespace Outline

mutual

/-- The words of a tree without its parentheses. -/
def spine : Outline Constant -> List Token
  | literal constant => [.literal constant]
  | param slot => [.param slot]
  | unary op operand => .sign op.sign :: operand.spine
  | binary op left right => left.spine ++ .sign op.sign :: right.spine
  | call callee args => callee.token :: spineOfAll args
  | computed id args =>
    .computedFunction :: .openBracket :: id.spine ++ .closeBracket :: spineOfAll args

def spineOfAll : List (Outline Constant) -> List Token
  | [] => []
  | tree :: others => tree.spine ++ furtherSpines others

def furtherSpines : List (Outline Constant) -> List Token
  | [] => []
  | tree :: others => .comma :: tree.spine ++ furtherSpines others

end

end Outline

namespace Token

theorem intercalate_comma_cons (part : List Token) (parts : List (List Token)) :
    List.intercalate [.comma] (part :: parts) =
      part ++ parts.flatMap (fun words => .comma :: words) := by
  induction parts generalizing part with
  | nil => rw [List.intercalate_singleton, List.flatMap_nil, List.append_nil]
  | cons next others inductionHypothesis =>
      rw [List.intercalate_cons_cons, inductionHypothesis, List.flatMap_cons, List.append_assoc]
      rfl

theorem intercalate_comma_append_cons (before : List (List Token)) (part : List Token)
    (after : List (List Token)) :
    List.intercalate [.comma] (before ++ part :: after) =
      before.flatMap (fun words => words ++ [.comma]) ++ part ++
        after.flatMap (fun words => .comma :: words) := by
  induction before with
  | nil => exact intercalate_comma_cons part after
  | cons first others inductionHypothesis =>
      rw [List.cons_append, List.intercalate_cons_of_ne_nil (by simp), inductionHypothesis,
        List.flatMap_cons]
      simp only [List.append_assoc]

theorem arguments_append_cons (before : List (List Token)) (part : List Token)
    (after : List (List Token)) :
    arguments (before ++ part :: after) =
      .openParen :: before.flatMap (fun words => words ++ [.comma]) ++ part ++
        (after.flatMap (fun words => .comma :: words) ++ [.closeParen]) := by
  rw [arguments, intercalate_comma_append_cons]
  simp only [List.cons_append, List.append_assoc]

/-- Whether as many parentheses open as close. -/
def Balanced (words : List Token) : Prop :=
  words.count .openParen = words.count .closeParen

theorem Balanced.append {before after : List Token} (first : Balanced before)
    (second : Balanced after) : Balanced (before ++ after) := by
  rw [Balanced, List.count_append, List.count_append, first, second]

theorem Balanced.cons {mark : Token} {words : List Token} (visible : mark.visible = true)
    (balanced : Balanced words) : Balanced (mark :: words) := by
  have opens : mark ≠ .openParen := by rintro rfl; cases visible
  have closes : mark ≠ .closeParen := by rintro rfl; cases visible
  rw [Balanced, List.count_cons_of_ne opens, List.count_cons_of_ne closes, balanced]

theorem Balanced.wrap {words : List Token} (balanced : Balanced words) (depth : Nat) :
    Balanced (wrap depth words) := by
  unfold Balanced at balanced
  simp [Balanced, Token.wrap, List.count_replicate]
  omega

theorem filter_visible_wrap (depth : Nat) (words : List Token) :
    (wrap depth words).filter visible = words.filter visible := by
  simp [wrap, visible]

end Token

/-- Whether the words are those of the tree with parentheses put in somewhere,
as many to open as to close. -/
structure Spells (tree : Outline Constant) (words : List Token) : Prop where
  spine : words.filter Token.visible = tree.spine
  balanced : Token.Balanced words

namespace Spells

variable {parts : List (List Token × Outline Constant)}

theorem wrap {tree : Outline Constant} {words : List Token} (spells : Spells tree words)
    (depth : Nat) : Spells tree (Token.wrap depth words) where
  spine := (Token.filter_visible_wrap depth words).trans spells.spine
  balanced := spells.balanced.wrap depth

theorem further_arguments (each : forall part, part ∈ parts -> Spells part.2 part.1) :
    ((parts.map Prod.fst).flatMap (fun words => .comma :: words)).filter Token.visible =
        Outline.furtherSpines (parts.map Prod.snd) ∧
      Token.Balanced ((parts.map Prod.fst).flatMap fun words => .comma :: words) := by
  induction parts with
  | nil => exact ⟨rfl, rfl⟩
  | cons part parts inductionHypothesis =>
      have spells := List.forall_mem_cons.mp each
      have further := inductionHypothesis spells.2
      rw [List.map_cons, List.map_cons, List.flatMap_cons, Outline.furtherSpines]
      constructor
      · rw [List.filter_append, further.1, List.filter_cons_of_pos rfl, spells.1.spine]
      · exact (spells.1.balanced.cons rfl).append further.2

theorem arguments (each : forall part, part ∈ parts -> Spells part.2 part.1) :
    (Token.arguments (parts.map Prod.fst)).filter Token.visible =
        Outline.spineOfAll (parts.map Prod.snd) ∧
      Token.Balanced (Token.arguments (parts.map Prod.fst)) := by
  rw [Token.arguments_eq_wrap, Token.filter_visible_wrap]
  cases parts with
  | nil => exact ⟨rfl, rfl⟩
  | cons part parts =>
      have spells := List.forall_mem_cons.mp each
      have further := further_arguments spells.2
      rw [List.map_cons, List.map_cons, Token.intercalate_comma_cons, Outline.spineOfAll]
      constructor
      · rw [List.filter_append, spells.1.spine, further.1]
      · exact (spells.1.balanced.append further.2).wrap 1

end Spells

theorem Callee.visible_token (callee : Callee) : callee.token.visible = true := by
  cases callee with
  | function id => rfl
  | command bank id => rfl

theorem Phrase.spells {rank : Nat} {words : List Token} {tree : Outline Constant}
    (phrase : Phrase rank words tree) : Spells tree words := by
  induction phrase with
  | literal _ constant => exact ⟨rfl, rfl⟩
  | param _ slot => exact ⟨rfl, rfl⟩
  | grouped _ inner innerHypothesis => exact innerHypothesis.wrap 1
  | unary op loose operand operandHypothesis =>
      constructor
      · rw [List.filter_cons_of_pos rfl, operandHypothesis.spine, Outline.spine]
      · exact operandHypothesis.balanced.cons rfl
  | binary op loose left right leftHypothesis rightHypothesis =>
      constructor
      · rw [List.filter_append, List.filter_cons_of_pos rfl, leftHypothesis.spine,
          rightHypothesis.spine, Outline.spine]
      · exact leftHypothesis.balanced.append (rightHypothesis.balanced.cons rfl)
  | call _ callee parts args argsHypothesis =>
      have arguments := Spells.arguments argsHypothesis
      constructor
      · rw [List.filter_cons_of_pos callee.visible_token, arguments.1, Outline.spine]
      · exact arguments.2.cons callee.visible_token
  | computed _ parts id args idHypothesis argsHypothesis =>
      have arguments := Spells.arguments argsHypothesis
      constructor
      · rw [List.filter_append, List.filter_cons_of_pos rfl, List.filter_cons_of_pos rfl,
          List.filter_cons_of_pos rfl, idHypothesis.spine, arguments.1, Outline.spine]
      · exact ((idHypothesis.balanced.cons rfl).cons rfl).append (arguments.2.cons rfl)

/-! ## Taking phrases apart -/

namespace Token

theorem eq_nil_of_filter_append {mark : Token} (visible : mark.visible = true)
    {before between after after' : List Token}
    (spine : before.filter Token.visible = (before ++ between).filter Token.visible)
    (same : mark :: after = between ++ mark :: after') : between = [] := by
  cases between with
  | nil => rfl
  | cons first others =>
      have begins : mark = first := (List.cons.inj same).1
      have empty := List.append_right_eq_self.mp ((List.filter_append _ _).symm.trans spine.symm)
      rw [← begins, List.filter_cons_of_pos visible] at empty
      cases empty

/-- Words are divided at a visible token in one way only, if it is known what
comes before it without the parentheses. -/
theorem append_cons_inj {mark : Token} (visible : mark.visible = true)
    {before after before' after' : List Token}
    (same : before ++ mark :: after = before' ++ mark :: after')
    (spine : before.filter Token.visible = before'.filter Token.visible) :
    before = before' ∧ after = after' := by
  rcases List.append_eq_append_iff.mp same with
    ⟨between, longer, rest⟩ | ⟨between, longer, rest⟩
  · have empty := eq_nil_of_filter_append visible (longer ▸ spine) rest
    rw [empty, List.append_nil] at longer
    rw [empty] at rest
    exact ⟨longer.symm, (List.cons.inj rest).2⟩
  · have empty := eq_nil_of_filter_append visible (longer ▸ spine.symm) rest
    rw [empty, List.append_nil] at longer
    rw [empty] at rest
    exact ⟨longer, (List.cons.inj rest).2.symm⟩

/-- Parentheses around the whole are told apart from those inside by counting
before a visible token. -/
theorem wrap_append_cons_inj {mark : Token} (visible : mark.visible = true) {depth depth' : Nat}
    {before after before' after' : List Token}
    (same : wrap depth (before ++ mark :: after) = wrap depth' (before' ++ mark :: after'))
    (spine : before.filter Token.visible = before'.filter Token.visible)
    (balanced : Balanced before) (balanced' : Balanced before') :
    depth = depth' ∧ before = before' ∧ after = after' := by
  rw [wrap_append_cons, wrap_append_cons] at same
  have divided := append_cons_inj visible same (by simpa [Token.visible] using spine)
  have opened := congrArg (List.count Token.openParen) divided.1
  have closed := congrArg (List.count Token.closeParen) divided.1
  simp [List.count_replicate] at opened closed
  unfold Balanced at balanced balanced'
  have depths : depth = depth' := by omega
  subst depths
  exact ⟨rfl, List.append_cancel_left divided.1, List.append_cancel_right divided.2⟩

theorem wrap_cons_inj {mark : Token} (visible : mark.visible = true) {depth depth' : Nat}
    {after after' : List Token} (same : wrap depth (mark :: after) = wrap depth' (mark :: after')) :
    depth = depth' ∧ after = after' := by
  have divided := @wrap_append_cons_inj mark visible depth depth' [] after [] after' same rfl rfl
    rfl
  exact ⟨divided.1, divided.2.2⟩

end Token

namespace Spells

variable {parts parts' : List (List Token × Outline Constant)}

theorem intercalate_comma_inj (trees : parts.map Prod.snd = parts'.map Prod.snd)
    (each : forall part, part ∈ parts -> Spells part.2 part.1)
    (each' : forall part, part ∈ parts' -> Spells part.2 part.1)
    (same : List.intercalate [Token.comma] (parts.map Prod.fst) =
      List.intercalate [.comma] (parts'.map Prod.fst)) : parts = parts' := by
  induction parts generalizing parts' with
  | nil => exact (List.map_eq_nil_iff.mp trees.symm).symm
  | cons part parts inductionHypothesis =>
      cases parts' with
      | nil => cases trees
      | cons part' parts' =>
          have heads := (List.cons.inj trees).1
          have tails := (List.cons.inj trees).2
          have spells := List.forall_mem_cons.mp each
          have spells' := List.forall_mem_cons.mp each'
          cases parts with
          | nil =>
              cases List.map_eq_nil_iff.mp tails.symm
              rw [List.map_singleton, List.map_singleton, List.intercalate_singleton,
                List.intercalate_singleton] at same
              exact congrArg (fun part => [part]) (Prod.ext same heads)
          | cons next others =>
              cases parts' with
              | nil => cases tails
              | cons next' others' =>
                  simp only [List.map_cons, List.intercalate_cons_cons, List.append_assoc,
                    List.singleton_append] at same
                  have divided := Token.append_cons_inj rfl same
                    (spells.1.spine.trans (heads ▸ spells'.1.spine.symm))
                  rw [Prod.ext divided.1 heads,
                    inductionHypothesis tails spells.2 spells'.2 divided.2]

theorem arguments_inj (trees : parts.map Prod.snd = parts'.map Prod.snd)
    (each : forall part, part ∈ parts -> Spells part.2 part.1)
    (each' : forall part, part ∈ parts' -> Spells part.2 part.1)
    (same : Token.arguments (parts.map Prod.fst) = Token.arguments (parts'.map Prod.fst)) :
    parts = parts' :=
  intercalate_comma_inj trees each each' (List.cons.inj (List.append_cancel_right same)).2

end Spells

/-- The words of a tree that stand in no parentheses but those of the whole,
around the phrases of its parts. -/
def Bare (rank : Nat) (words : List Token) : Outline Constant -> Prop
  | .literal constant => words = [.literal constant]
  | .param slot => words = [.param slot]
  | .unary op operand => Exists fun inner =>
    words = .sign op.sign :: inner ∧ Phrase Precedence.unary.rank inner operand
  | .binary op left right => Exists fun before => Exists fun after =>
    words = before ++ .sign op.sign :: after ∧ rank ≤ op.precedence.rank ∧
      Phrase op.precedence.rank before left ∧ Phrase (op.precedence.rank + 1) after right
  | .call callee args => Exists fun parts : List (List Token × Outline Constant) =>
    words = callee.token :: Token.arguments (parts.map Prod.fst) ∧ parts.map Prod.snd = args ∧
      forall part, part ∈ parts -> Phrase 0 part.1 part.2
  | .computed id args => Exists fun inner =>
    Exists fun parts : List (List Token × Outline Constant) =>
    words = .computedFunction :: .openBracket :: inner ++
        .closeBracket :: Token.arguments (parts.map Prod.fst) ∧
      Phrase 0 inner id ∧ parts.map Prod.snd = args ∧
      forall part, part ∈ parts -> Phrase 0 part.1 part.2

theorem exists_wrap_of_bare {rank : Nat} {words : List Token} {tree : Outline Constant}
    (bare : Bare rank words tree) :
    Exists fun depth => Exists fun core => Exists fun least =>
      words = Token.wrap depth core ∧ Bare least core tree ∧ (depth = 0 -> rank ≤ least) :=
  ⟨0, words, rank, (Token.wrap_zero words).symm, bare, fun _ => Nat.le_refl rank⟩

theorem Phrase.exists_wrap {rank : Nat} {words : List Token} {tree : Outline Constant}
    (phrase : Phrase rank words tree) :
    Exists fun depth => Exists fun core => Exists fun least =>
      words = Token.wrap depth core ∧ Bare least core tree ∧ (depth = 0 -> rank ≤ least) := by
  induction phrase with
  | literal rank constant => exact exists_wrap_of_bare rfl
  | param rank slot => exact exists_wrap_of_bare rfl
  | grouped rank inner innerHypothesis =>
      rcases innerHypothesis with ⟨depth, core, least, same, bare, _⟩
      refine ⟨depth + 1, core, least, ?_, bare, nofun⟩
      rw [Token.wrap_succ, same]
  | unary op loose operand => exact exists_wrap_of_bare ⟨_, rfl, operand⟩
  | binary op loose left right => exact exists_wrap_of_bare ⟨_, _, rfl, loose, left, right⟩
  | call rank callee parts args => exact exists_wrap_of_bare ⟨parts, rfl, rfl, args⟩
  | computed rank parts id args => exact exists_wrap_of_bare ⟨_, parts, rfl, id, rfl, args⟩

namespace Phrase

variable {rank depth : Nat}

theorem operand_of_unary {op : UnaryOp} {inner : List Token} {operand : Outline Constant}
    (phrase : Phrase rank (Token.wrap depth (.sign op.sign :: inner)) (.unary op operand)) :
    Phrase Precedence.unary.rank inner operand := by
  rcases phrase.exists_wrap with ⟨other, core, least, same, ⟨inner', rfl, operandPhrase⟩, _⟩
  have divided := Token.wrap_cons_inj rfl same
  rwa [divided.2]

theorem operands_of_binary {op : BinaryOp} {before after : List Token}
    {left right : Outline Constant} (spells : Spells left before)
    (phrase : Phrase rank (Token.wrap depth (before ++ .sign op.sign :: after))
      (.binary op left right)) :
    Phrase op.precedence.rank before left ∧ Phrase (op.precedence.rank + 1) after right ∧
      (depth = 0 -> rank ≤ op.precedence.rank) := by
  rcases phrase.exists_wrap with
    ⟨other, core, least, same, ⟨before', after', rfl, loose, leftPhrase, rightPhrase⟩, lower⟩
  have divided := Token.wrap_append_cons_inj rfl same
    (spells.spine.trans leftPhrase.spells.spine.symm) spells.balanced leftPhrase.spells.balanced
  rw [divided.1, divided.2.1, divided.2.2]
  exact ⟨leftPhrase, rightPhrase, fun bare => Nat.le_trans (lower bare) loose⟩

theorem arguments_of_call (callee : Callee) {parts : List (List Token × Outline Constant)}
    (spells : forall part, part ∈ parts -> Spells part.2 part.1)
    (phrase : Phrase rank (Token.wrap depth (callee.token :: Token.arguments (parts.map Prod.fst)))
      (.call callee (parts.map Prod.snd))) :
    forall part, part ∈ parts -> Phrase 0 part.1 part.2 := by
  rcases phrase.exists_wrap with ⟨other, core, least, same, ⟨parts', rfl, trees, args⟩, _⟩
  have divided := Token.wrap_cons_inj callee.visible_token same
  have equal := Spells.arguments_inj trees.symm spells
    (fun part member => (args part member).spells) divided.2
  rwa [equal]

theorem parts_of_computed {inner : List Token} {id : Outline Constant}
    {parts : List (List Token × Outline Constant)} (idSpells : Spells id inner)
    (spells : forall part, part ∈ parts -> Spells part.2 part.1)
    (phrase : Phrase rank (Token.wrap depth (.computedFunction :: .openBracket :: inner ++
        .closeBracket :: Token.arguments (parts.map Prod.fst)))
      (.computed id (parts.map Prod.snd))) :
    Phrase 0 inner id ∧ forall part, part ∈ parts -> Phrase 0 part.1 part.2 := by
  rcases phrase.exists_wrap with
    ⟨other, core, least, same, ⟨inner', parts', rfl, idPhrase, trees, args⟩, _⟩
  have opened := Token.wrap_cons_inj rfl same
  have divided := Token.append_cons_inj rfl (List.cons.inj opened.2).2
    (idSpells.spine.trans idPhrase.spells.spine.symm)
  have equal := Spells.arguments_inj trees.symm spells
    (fun part member => (args part member).spells) divided.2
  rw [divided.1, equal]
  exact ⟨idPhrase, args⟩

end Phrase
end Rpn
