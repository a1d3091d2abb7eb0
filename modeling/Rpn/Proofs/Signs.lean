import Rpn.Proofs.InfixText

/-!
# No sign is doubled

A unary operator is written directly before its operand.  An operand that
begins with the same sign is enclosed, and this is decided by the root of the
operand alone.  Main statement: in infix text the sign of a unary operator
never stands twice in a row, but for the inside of quoted text
(`Expr.signs_undoubled`).

What is inside quotes is found in the text itself, by a reader that knows of
nothing but quotes and backslashes.  The text is taken as the spelling of
lexemes: only the lexeme of a sign ends with such a character, so it is enough
to look at what is written behind a sign.
-/

namespace Rpn

/-- The character of the sign. -/
def UnaryOp.mark : UnaryOp -> Char
  | neg => '-'
  | not => '!'

theorem UnaryOp.toList_sign (op : UnaryOp) : op.sign.text.toList = [op.mark] := by
  cases op <;> rfl

theorem UnaryOp.ne_mark {char : Char} (unmarked : char ≠ '-' ∧ char ≠ '!') (op : UnaryOp) :
    char ≠ op.mark := by
  cases op with
  | neg => exact unmarked.1
  | not => exact unmarked.2

theorem UnaryOp.head?_cons_ne {char : Char} (unmarked : char ≠ '-' ∧ char ≠ '!') (op : UnaryOp)
    (rest : List Char) : (char :: rest).head? ≠ some op.mark :=
  fun head => op.ne_mark unmarked (Option.some.inj head)

/-- The digits of a number do not begin with a sign. -/
theorem head?_toDigits_append_ne (value : Nat) (op : UnaryOp) (rest : List Char) :
    (Nat.toDigits 10 value ++ rest).head? ≠ some op.mark := by
  cases shape : Nat.toDigits 10 value with
  | nil => exact absurd shape Nat.toDigits_ne_nil
  | cons first others =>
      have digit : first.isDigit := isDigit_of_mem_toDigits (shape ▸ List.mem_cons_self)
      intro head
      cases Option.some.inj head
      cases op <;> cases digit

/-! ## Quotes in a text -/

/-- Where in a text a reader stands. -/
inductive Zone
  | outside
  | quoted
  /-- Behind a backslash within quotes. -/
  | escaped
  deriving DecidableEq

namespace Zone

/-- The zone behind a character. -/
def next : Zone -> Char -> Zone
  | outside, char => if char = '"' then quoted else outside
  | quoted, char => if char = '"' then outside else if char = '\\' then escaped else quoted
  | escaped, _ => quoted

/-- The zone behind a text. -/
def behind (zone : Zone) (text : List Char) : Zone :=
  text.foldl next zone

/-- Whether no unary sign outside of quotes is followed by itself, and every
quote is closed. -/
def Undoubled : Zone -> List Char -> Prop
  | zone, [] => zone = outside
  | zone, char :: rest =>
    (zone = outside -> forall op : UnaryOp, char = op.mark -> rest.head? ≠ some op.mark) ∧
      (zone.next char).Undoubled rest

variable {zone : Zone} {rest : List Char}

/-- A sign that stands twice in a row stands within quotes. -/
theorem Undoubled.behind_ne_outside (op : UnaryOp) {before after : List Char}
    (undoubled : zone.Undoubled (before ++ op.mark :: op.mark :: after)) :
    zone.behind before ≠ outside := by
  induction before generalizing zone with
  | nil =>
      intro unquoted
      exact undoubled.1 unquoted op rfl rfl
  | cons char before inductionHypothesis => exact inductionHypothesis undoubled.2

theorem Undoubled.behind_eq_outside {text : List Char} (undoubled : zone.Undoubled text) :
    zone.behind text = outside := by
  induction text generalizing zone with
  | nil => exact undoubled
  | cons char text inductionHypothesis => exact inductionHypothesis undoubled.2

theorem Undoubled.cons_within {char : Char} (within : zone ≠ outside)
    (undoubled : (zone.next char).Undoubled rest) : zone.Undoubled (char :: rest) :=
  ⟨fun unquoted => absurd unquoted within, undoubled⟩

theorem Undoubled.cons_quote (undoubled : quoted.Undoubled rest) :
    outside.Undoubled ('"' :: rest) :=
  ⟨fun _ op same => absurd same (op.ne_mark (by decide)), undoubled⟩

theorem Undoubled.cons_mark (op : UnaryOp) (apart : rest.head? ≠ some op.mark)
    (undoubled : outside.Undoubled rest) : outside.Undoubled (op.mark :: rest) := by
  refine ⟨?_, ?_⟩
  · intro _ other same
    exact same ▸ apart
  · cases op with
    | neg => exact undoubled
    | not => exact undoubled

theorem Undoubled.append_sign (op : UnaryOp) (apart : rest.head? ≠ some op.mark)
    (undoubled : outside.Undoubled rest) : outside.Undoubled (op.sign.text.toList ++ rest) := by
  rw [op.toList_sign]
  exact undoubled.cons_mark op apart

/-- Whether the character is neither a unary sign nor a quote. -/
def isPlain (char : Char) : Bool :=
  !(['-', '!', '"'].contains char)

theorem isPlain_of_isNumeral {char : Char} (numeral : isNumeral char) : isPlain char := by
  rw [isPlain, Bool.not_eq_true']
  apply Bool.eq_false_iff.mpr
  intro special
  rw [List.contains_iff_mem] at special
  simp only [List.mem_cons, List.not_mem_nil, or_false] at special
  rcases special with rfl | rfl | rfl
  all_goals cases numeral

theorem Undoubled.cons_plain {char : Char} (plain : isPlain char)
    (undoubled : outside.Undoubled rest) : outside.Undoubled (char :: rest) := by
  have noQuote : char ≠ '"' := by
    rintro rfl
    cases plain
  refine ⟨?_, ?_⟩
  · rintro - op rfl
    cases op <;> cases plain
  · rw [next, if_neg noQuote]
    exact undoubled

theorem Undoubled.append_plain {text : List Char} (plain : forall char, char ∈ text -> isPlain char)
    (undoubled : outside.Undoubled rest) : outside.Undoubled (text ++ rest) := by
  induction text with
  | nil => exact undoubled
  | cons char text inductionHypothesis =>
      have each := List.forall_mem_cons.mp plain
      exact (inductionHypothesis each.2).cons_plain each.1

theorem Undoubled.append_toDigits (value : Nat) (undoubled : outside.Undoubled rest) :
    outside.Undoubled (Nat.toDigits 10 value ++ rest) :=
  undoubled.append_plain fun _ member => isPlain_of_isNumeral (isNumeral_of_mem_toDigits member)

/-- A negative integer begins with a sign, and its digits follow. -/
theorem Undoubled.append_int (value : Int) (undoubled : outside.Undoubled rest) :
    outside.Undoubled ((toString value).toList ++ rest) := by
  rw [toList_toString_int]
  have digits := undoubled.append_toDigits value.natAbs
  split
  · exact ⟨fun _ op _ => head?_toDigits_append_ne value.natAbs op rest, digits⟩
  · exact digits

/-! ## Quoted text -/

theorem Undoubled.append_inside {text : List Char}
    (inside : forall char, char ∈ text -> char ≠ '"' ∧ char ≠ '\\')
    (undoubled : quoted.Undoubled rest) : quoted.Undoubled (text ++ rest) := by
  induction text with
  | nil => exact undoubled
  | cons char text inductionHypothesis =>
      have each := List.forall_mem_cons.mp inside
      apply cons_within (by decide)
      rw [next, if_neg each.1.1, if_neg each.1.2]
      exact inductionHypothesis each.2

theorem exists_digitChar_of_mem_toDigits {base value : Nat} {char : Char} (two : 1 < base)
    (member : char ∈ Nat.toDigits base value) :
    Exists fun digit => digit < base ∧ char = digit.digitChar := by
  induction value using Nat.strongRecOn with
  | ind value inductionHypothesis =>
      by_cases small : value < base
      · rw [Nat.toDigits_of_lt_base small] at member
        exact ⟨value, small, List.mem_singleton.mp member⟩
      · have large : base ≤ value := Nat.le_of_not_lt small
        rw [Nat.toDigits_of_base_le two large] at member
        rcases List.mem_append.mp member with earlier | last
        · exact inductionHypothesis _ (Nat.div_lt_self (by omega) two) earlier
        · exact ⟨value % base, Nat.mod_lt _ (by omega), List.mem_singleton.mp last⟩

/-- No escape ends the quotes. -/
theorem Undoubled.append_escape (char : Char) (undoubled : quoted.Undoubled rest) :
    quoted.Undoubled (Quoted.escape '"' char ++ rest) := by
  by_cases named : char ∈ ['\x00', '\t', '\r', '\n', '\\', '"']
  · simp only [List.mem_cons, List.not_mem_nil, or_false] at named
    rcases named with rfl | rfl | rfl | rfl | rfl | rfl
    all_goals exact .cons_within (by decide) (.cons_within (by decide) undoubled)
  · simp only [List.mem_cons, List.not_mem_nil, or_false, not_or] at named
    rcases named with ⟨noNull, noTab, noReturn, noLineFeed, noBackslash, noQuote⟩
    simp only [Quoted.escape, if_neg noNull, if_neg noTab, if_neg noReturn, if_neg noLineFeed,
      if_neg noBackslash, if_neg noQuote]
    split
    · have hexadecimal : forall digit, digit < 16 ->
          digit.digitChar ≠ '"' ∧ digit.digitChar ≠ '\\' := by decide
      have digits : forall written, written ∈ Nat.toDigits 16 char.toNat ++ ['\x7d'] ->
          written ≠ '"' ∧ written ≠ '\\' := by
        intro written member
        rcases List.mem_append.mp member with digit | brace
        · rcases exists_digitChar_of_mem_toDigits (by decide) digit with ⟨value, small, rfl⟩
          exact hexadecimal value small
        · rw [List.mem_singleton.mp brace]
          decide
      exact .cons_within (by decide) (.cons_within (by decide) (.cons_within (by decide)
        (undoubled.append_inside digits)))
    · exact undoubled.append_inside (List.forall_mem_singleton.mpr ⟨noQuote, noBackslash⟩)

theorem Undoubled.append_quoted (content : List Char) (undoubled : outside.Undoubled rest) :
    outside.Undoubled ('"' :: (Quoted.body content ++ ['"']) ++ rest) := by
  rw [List.cons_append, List.append_assoc]
  apply cons_quote
  induction content with
  | nil => exact .cons_within (by decide) undoubled
  | cons char content inductionHypothesis =>
      rw [Quoted.body, List.flatMap_cons, List.append_assoc]
      exact inductionHypothesis.append_escape char

end Zone

/-! ## Lexemes -/

namespace Lexeme

def isSign : Lexeme Literal -> Bool
  | sign _ => true
  | _ => false

/-- Whether no unary sign is followed by itself in the spelling. -/
def SignsApart : List (Lexeme Literal) -> Prop
  | [] => True
  | lexeme :: rest =>
    (forall op : UnaryOp, lexeme = .sign op.sign -> (spelling rest).head? ≠ some op.mark) ∧
      SignsApart rest

theorem SignsApart.cons {lexeme : Lexeme Literal} {rest : List (Lexeme Literal)}
    (noSign : lexeme.isSign = false) (following : SignsApart rest) :
    SignsApart (lexeme :: rest) := by
  refine ⟨?_, following⟩
  rintro op rfl
  cases noSign

theorem undoubled_chars_append {lexeme : Lexeme Literal} {rest : List Char}
    (apart : forall op : UnaryOp, lexeme = .sign op.sign -> rest.head? ≠ some op.mark)
    (undoubled : Zone.outside.Undoubled rest) :
    Zone.outside.Undoubled (lexeme.chars ++ rest) := by
  cases lexeme with
  | literal value =>
      cases value with
      | natural value => exact undoubled.append_toDigits value
      | decimal text =>
          have parts := text.shaped
          simp only [isDecimalText, Bool.and_eq_true] at parts
          apply undoubled.append_plain
          intro char member
          exact Zone.isPlain_of_isNumeral (List.all_eq_true.mp parts.1.2 char member)
      | string content =>
          show Zone.outside.Undoubled ((Quoted.text content).toList ++ rest)
          rw [Quoted.text, String.toList_ofList]
          exact undoubled.append_quoted content.toList
  | param slot =>
      show Zone.outside.Undoubled ((Naming.default.param slot).toList ++ rest)
      rw [toList_param]
      exact (undoubled.append_toDigits slot.toNat).cons_plain rfl
  | name callee =>
      cases callee with
      | function id =>
          rw [chars, Callee.chars, toList_function]
          exact (undoubled.append_int id).cons_plain rfl
      | command bank id =>
          rw [chars, Callee.chars, toList_command, List.cons_append, List.append_assoc]
          have number := undoubled.append_int id.toInt
          have named : Zone.outside.Undoubled ('_' :: ((toString id.toInt).toList ++ rest)) :=
            number.cons_plain rfl
          exact (named.append_toDigits bank.toNat).cons_plain rfl
  | sign mark =>
      cases mark with
      | minus => exact undoubled.append_sign .neg (apart .neg rfl)
      | bang => exact undoubled.append_sign .not (apart .not rfl)
      | ne =>
          have spelled : (sign .ne : Lexeme Literal).chars = ['!', '='] := by decide
          rw [spelled]
          exact (undoubled.cons_plain rfl).cons_mark .not (UnaryOp.head?_cons_ne (by decide) .not rest)
      | _ => exact undoubled.append_plain (List.all_eq_true.mp (by decide))
  | _ => exact undoubled.append_plain (List.all_eq_true.mp (by decide))

theorem SignsApart.undoubled {lexemes : List (Lexeme Literal)} (apart : SignsApart lexemes) :
    Zone.outside.Undoubled (spelling lexemes) := by
  induction lexemes with
  | nil => rfl
  | cons lexeme rest inductionHypothesis =>
      rw [spelling, List.flatMap_cons]
      exact undoubled_chars_append apart.1 (inductionHypothesis apart.2)

/-- Only a sign begins with the character of a sign. -/
theorem head?_chars_append_ne (lexeme : Lexeme Literal) (noSign : lexeme.isSign = false)
    (op : UnaryOp) (rest : List Char) : (lexeme.chars ++ rest).head? ≠ some op.mark := by
  cases lexeme with
  | literal value =>
      cases value with
      | natural value => exact head?_toDigits_append_ne value op rest
      | decimal text =>
          rcases text with ⟨chars, shaped⟩
          cases chars with
          | nil => cases shaped
          | cons first others =>
              simp only [isDecimalText, Bool.and_eq_true] at shaped
              have starts : startsNumber first := shaped.1.1
              intro head
              cases Option.some.inj head
              cases op <;> cases starts
      | string content =>
          show ((Quoted.text content).toList ++ rest).head? ≠ some op.mark
          rw [Quoted.text, String.toList_ofList]
          exact op.head?_cons_ne (by decide) _
  | param slot =>
      show ((Naming.default.param slot).toList ++ rest).head? ≠ some op.mark
      rw [toList_param]
      exact op.head?_cons_ne (by decide) _
  | name callee =>
      cases callee with
      | function id =>
          rw [chars, Callee.chars, toList_function]
          exact op.head?_cons_ne (by decide) _
      | command bank id =>
          rw [chars, Callee.chars, toList_command]
          exact op.head?_cons_ne (by decide) _
  | sign mark => cases noSign
  | _ => exact op.head?_cons_ne (by decide) _

end Lexeme

/-! ## Outlines -/

namespace Outline

open Lexeme

/-- Behind a unary operator stands an operand that begins with another
character, or a parenthesis. -/
theorem head?_spelling_operand_ne (op : UnaryOp) (operand : Outline Literal)
    (rest : List (Lexeme Literal)) :
    (spelling (enclose (operand.needsParensAfter Literal.signed op)
      (fun after => operand.lexemesThen Literal.signed after) rest)).head? ≠ some op.mark := by
  cases needed : operand.needsParensAfter Literal.signed op with
  | true => exact op.head?_cons_ne (by decide) _
  | false =>
      rw [enclose, if_neg Bool.false_ne_true]
      rcases Bool.or_eq_false_iff.mp needed with ⟨tight, different⟩
      cases operand with
      | literal value => exact head?_chars_append_ne (.literal value) rfl op _
      | param slot => exact head?_chars_append_ne (.param slot) rfl op _
      | unary inner operand =>
          cases op with
          | neg =>
              cases inner with
              | neg => cases different
              | not => exact fun head => absurd (Option.some.inj head) (by decide)
          | not =>
              cases inner with
              | neg => exact fun head => absurd (Option.some.inj head) (by decide)
              | not => cases different
      | binary inner left right => exact absurd inner.rank_lt_unary (of_decide_eq_false tight)
      | call callee args => exact head?_chars_append_ne (.name callee) rfl op _
      | computed id args => exact head?_chars_append_ne .computed rfl op _

theorem signsApart_enclose {operand : Outline Literal}
    (apart : forall rest, SignsApart rest -> SignsApart (operand.lexemesThen Literal.signed rest))
    (needed : Bool) {rest : List (Lexeme Literal)} (following : SignsApart rest) :
    SignsApart (enclose needed (fun after => operand.lexemesThen Literal.signed after) rest) := by
  cases needed with
  | false => exact apart rest following
  | true => exact .cons rfl (apart (.closeParen :: rest) (.cons rfl following))

theorem signsApart_furtherArgumentsThen {others : List (Outline Literal)}
    (each : forall arg, arg ∈ others -> forall rest, SignsApart rest ->
      SignsApart (arg.lexemesThen Literal.signed rest))
    {rest : List (Lexeme Literal)} (following : SignsApart rest) :
    SignsApart (furtherArgumentsThen Literal.signed others rest) := by
  induction others with
  | nil => exact following
  | cons arg others inductionHypothesis =>
      have parts := List.forall_mem_cons.mp each
      exact .cons rfl (.cons rfl (parts.1 _ (inductionHypothesis parts.2)))

theorem signsApart_argumentsThen {args : List (Outline Literal)}
    (each : forall arg, arg ∈ args -> forall rest, SignsApart rest ->
      SignsApart (arg.lexemesThen Literal.signed rest))
    {rest : List (Lexeme Literal)} (following : SignsApart rest) :
    SignsApart (argumentsThen Literal.signed args (.closeParen :: rest)) := by
  cases args with
  | nil => exact .cons rfl following
  | cons arg others =>
      have parts := List.forall_mem_cons.mp each
      exact parts.1 _ (signsApart_furtherArgumentsThen parts.2 (.cons rfl following))

theorem signsApart_lexemesThen (outline : Outline Literal) (rest : List (Lexeme Literal))
    (following : SignsApart rest) : SignsApart (outline.lexemesThen Literal.signed rest) := by
  induction outline generalizing rest with
  | literal value => exact .cons rfl following
  | param slot => exact .cons rfl following
  | unary op operand operandHypothesis =>
      refine ⟨?_, signsApart_enclose operandHypothesis _ following⟩
      rintro other same
      have equal : op = other := by cases op <;> cases other <;> cases same <;> rfl
      exact equal ▸ head?_spelling_operand_ne op operand rest
  | binary op left right leftHypothesis rightHypothesis =>
      have operator := signsApart_enclose rightHypothesis (op.enclosesRight (right.rank Literal.signed))
        following
      -- A blank stands behind an operator between operands.
      have spaced : SignsApart (.sign op.sign :: .blank :: _) :=
        ⟨fun other _ => other.head?_cons_ne (by decide) _, .cons rfl operator⟩
      exact signsApart_enclose leftHypothesis _ (.cons rfl spaced)
  | call callee args argsHypothesis =>
      exact .cons rfl (.cons rfl (signsApart_argumentsThen argsHypothesis following))
  | computed id args idHypothesis argsHypothesis =>
      have call := signsApart_argumentsThen argsHypothesis following
      exact .cons rfl (.cons rfl (idHypothesis _ (.cons rfl (.cons rfl call))))

/-! ## An operand within the text -/

variable {Leaf : Type} {signed : Leaf -> Bool} {second : List (Lexeme Leaf)}

theorem enclose_append {operand : Outline Leaf}
    (appends : forall first, operand.lexemesThen signed (first ++ second) =
      operand.lexemesThen signed first ++ second) (needed : Bool) (first : List (Lexeme Leaf)) :
    enclose needed (fun after => operand.lexemesThen signed after) (first ++ second) =
      enclose needed (fun after => operand.lexemesThen signed after) first ++ second := by
  cases needed with
  | false => exact appends first
  | true => exact congrArg (List.cons .openParen) (appends (.closeParen :: first))

theorem furtherArgumentsThen_append {others : List (Outline Leaf)}
    (each : forall arg, arg ∈ others -> forall first, arg.lexemesThen signed (first ++ second) =
      arg.lexemesThen signed first ++ second) (first : List (Lexeme Leaf)) :
    furtherArgumentsThen signed others (first ++ second) =
      furtherArgumentsThen signed others first ++ second := by
  induction others with
  | nil => rfl
  | cons arg others inductionHypothesis =>
      have parts := List.forall_mem_cons.mp each
      rw [furtherArgumentsThen, inductionHypothesis parts.2, parts.1]
      rfl

theorem argumentsThen_append {args : List (Outline Leaf)}
    (each : forall arg, arg ∈ args -> forall first, arg.lexemesThen signed (first ++ second) =
      arg.lexemesThen signed first ++ second) (first : List (Lexeme Leaf)) :
    argumentsThen signed args (first ++ second) = argumentsThen signed args first ++ second := by
  cases args with
  | nil => rfl
  | cons arg others =>
      have parts := List.forall_mem_cons.mp each
      rw [argumentsThen, furtherArgumentsThen_append parts.2, parts.1]
      rfl

/-- What follows an outline is not changed by it. -/
theorem lexemesThen_append (outline : Outline Leaf) (first : List (Lexeme Leaf)) :
    outline.lexemesThen signed (first ++ second) = outline.lexemesThen signed first ++ second := by
  induction outline generalizing first with
  | literal value => rfl
  | param slot => rfl
  | unary op operand operandHypothesis =>
      exact congrArg (List.cons (.sign op.sign)) (enclose_append operandHypothesis _ first)
  | binary op left right leftHypothesis rightHypothesis =>
      have operator := congrArg (fun after => .blank :: .sign op.sign :: .blank :: after)
        (enclose_append rightHypothesis (op.enclosesRight (right.rank signed)) first)
      rw [lexemesThen, operator]
      exact enclose_append leftHypothesis _ (.blank :: .sign op.sign :: .blank :: _)
  | call callee args argsHypothesis =>
      exact congrArg (fun after => .name callee :: .openParen :: after)
        (argumentsThen_append argsHypothesis (.closeParen :: first))
  | computed id args idHypothesis argsHypothesis =>
      have call := congrArg (fun after => .closeBracket :: .openParen :: after)
        (argumentsThen_append argsHypothesis (.closeParen :: first))
      have whole := idHypothesis
        (.closeBracket :: .openParen :: argumentsThen signed args (.closeParen :: first))
      exact congrArg (fun after => .computed :: .openBracket :: after)
        ((congrArg (id.lexemesThen signed) call).trans whole)

end Outline

/-! ## The text of a tree -/

theorem Constant.isNegative_iff (constant : Constant) :
    constant.isNegative = true ↔ constant.literal.toList.head? = some '-' := by
  have unsigned := Lexeme.head?_chars_append_ne (.literal constant.magnitude) rfl .neg []
  rw [List.append_nil] at unsigned
  rw [constant.toList_literal]
  split
  · rename_i negative
    exact iff_of_true negative rfl
  · rename_i notNegative
    exact iff_of_false notNegative unsigned

/-- No NaN is written with a sign, whatever its sign bit. -/
theorem Constant.literal_of_nan {constant : Constant} (nan : constant.floatValue? = some .nan) :
    constant.literal = "NaN" := by
  cases constant with
  | int value width => cases nan
  | float32 bits =>
      rw [literal, Option.some.inj nan]
      rfl
  | float64 bits =>
      rw [literal, Option.some.inj nan]
      rfl
  | string text => cases nan

namespace Expr

theorem undoubled_defaultText (expr : Expr) : Zone.outside.Undoubled expr.defaultText.toList := by
  rw [toList_defaultText]
  apply Lexeme.SignsApart.undoubled
  exact expr.erase.signsApart_lexemesThen [] trivial

/-- The text of a unary operation is the sign and the text of the operand, in
parentheses if these are needed. -/
theorem toList_defaultText_unary (op : UnaryOp) (operand : Expr) :
    (unary op operand).defaultText.toList =
      op.mark ::
        if operand.needsParensAfter op then '(' :: (operand.defaultText.toList ++ [')'])
        else operand.defaultText.toList := by
  have same : operand.erase.needsParensAfter Literal.signed op = operand.needsParensAfter op := by
    rw [Outline.needsParensAfter, rank_erase, startsWith_erase, needsParensAfter]
  have shape : (unary op operand).erase.lexemes Literal.signed =
      .sign op.sign :: Outline.enclose (operand.needsParensAfter op)
        (fun after => operand.erase.lexemesThen Literal.signed after) [] :=
    same ▸ rfl
  rw [toList_defaultText, toList_defaultText, shape, Lexeme.spelling, List.flatMap_cons,
    Lexeme.chars, op.toList_sign, List.singleton_append]
  apply congrArg (List.cons op.mark)
  cases operand.needsParensAfter op with
  | false => rfl
  | true =>
      have closed : operand.erase.lexemesThen Literal.signed [.closeParen] =
          operand.erase.lexemes Literal.signed ++ [.closeParen] :=
        operand.erase.lexemesThen_append []
      rw [Outline.enclose, if_pos rfl, closed, List.flatMap_cons, List.flatMap_append]
      rfl

/-- Every quote in infix text is closed, and the sign of a unary operator never
stands twice in a row outside of quotes.  So an operand that begins with the
sign stands in parentheses behind it.  A constant counts as negative exactly if
its literal begins with a minus sign, and a NaN never does. -/
theorem signs_undoubled (expr : Expr) :
    Zone.outside.behind expr.defaultText.toList = .outside ∧
    (forall mark, mark = '-' ∨ mark = '!' -> forall before after,
      expr.defaultText.toList = before ++ mark :: mark :: after ->
        Zone.outside.behind before ≠ .outside) ∧
    (forall (op : UnaryOp) (operand : Expr), Exists fun inner =>
      (unary op operand).defaultText.toList = op.mark :: inner ∧ inner.head? ≠ some op.mark ∧
        (inner = operand.defaultText.toList ∨
          inner = '(' :: (operand.defaultText.toList ++ [')']))) ∧
    forall constant : Constant,
      (constant.isNegative = true ↔ constant.literal.toList.head? = some '-') ∧
        (constant.floatValue? = some .nan -> constant.literal = "NaN") := by
  refine ⟨expr.undoubled_defaultText.behind_eq_outside, ?_, ?_, ?_⟩
  · intro mark sign before after shape
    have undoubled := expr.undoubled_defaultText
    rw [shape] at undoubled
    rcases sign with rfl | rfl
    · exact undoubled.behind_ne_outside .neg
    · exact undoubled.behind_ne_outside .not
  · intro op operand
    have shape := toList_defaultText_unary op operand
    have undoubled := (unary op operand).undoubled_defaultText
    rw [shape] at undoubled
    refine ⟨_, shape, undoubled.1 rfl op rfl, ?_⟩
    cases operand.needsParensAfter op with
    | false => exact Or.inl rfl
    | true => exact Or.inr rfl
  · intro constant
    exact ⟨constant.isNegative_iff, constant.literal_of_nan⟩

/-- A negated negative literal, and a text of minus signs. -/
theorem signs_undoubled_minusText :
    (binary .add (unary .neg (.ofInt (-5))) (.const (.string "--"))).defaultText.toList =
        ['-', '(', '-', '5', ')', ' ', '+', ' ', '"'] ++ '-' :: '-' :: ['"'] ∧
      Zone.outside.behind ['-', '(', '-', '5', ')', ' ', '+', ' ', '"'] ≠ .outside ∧
      (Constant.float32 0xFFC00000).floatValue? = some .nan ∧
      (Constant.float32 0xFFC00000).literal = "NaN" := by
  have shape : (binary .add (unary .neg (.ofInt (-5))) (.const (.string "--"))).defaultText.toList =
      ['-', '(', '-', '5', ')', ' ', '+', ' ', '"'] ++ '-' :: '-' :: ['"'] := by decide +kernel
  have nan : (Constant.float32 0xFFC00000).floatValue? = some .nan := by rfl
  rcases signs_undoubled (binary .add (unary .neg (.ofInt (-5))) (.const (.string "--"))) with
    ⟨_, undoubled, _, literals⟩
  exact ⟨shape, undoubled '-' (Or.inl rfl) _ _ shape, nan, (literals _).2 nan⟩

end Expr
end Rpn
