import Mathlib.Data.List.Forall2
import Rpn.CommandLine.StandardFormats
import Rpn.Proofs.Numeral

/-!
# Reading a written document

A document is written as text, and the text is read in two steps: it is cut
into tokens, and the tokens are taken one by one by a machine.  Main statement:
what is read is the document that was written (`JsonDocument.read?_render`).

Both steps follow the document, and both have a rest behind it that is not
looked at but for one thing: a number ends only where no digit, point or
exponent follows.
-/

namespace Rpn

namespace JsonToken

/-! ## Cutting into tokens -/

/-- Whether the character could go on a number. -/
def continuesNumber (char : Char) : Bool :=
  char.isDigit || ['.', 'e', 'E'].contains char

/-- Whether a text in front of any other that does not go on a number is cut
into these tokens. -/
structure Cuts (text : List Char) (tokens : List JsonToken) : Prop where
  /-- A token has a character or more. -/
  short : tokens.length ≤ text.length
  within : forall (fuel : Nat) (rest : List Char), Halts continuesNumber rest ->
    tokensWithin (tokens.length + fuel) (text ++ rest) =
      (tokensWithin fuel rest).map fun others => tokens ++ others

theorem Cuts.tokens? {text : String} {tokens : List JsonToken}
    (cuts : Cuts text.toList tokens) : JsonToken.tokens? text = some tokens := by
  have enough := cuts.short
  rw [String.length_toList] at enough
  have cut := cuts.within (text.length - tokens.length) [] nofun
  rw [Nat.add_sub_cancel' enough, List.append_nil] at cut
  rw [JsonToken.tokens?, cut]
  cases text.length - tokens.length with
  | zero => exact congrArg some (List.append_nil tokens)
  | succ fuel => exact congrArg some (List.append_nil tokens)

theorem halts_append {text rest : List Char} (begins : Halts continuesNumber text)
    (halts : Halts continuesNumber rest) : Halts continuesNumber (text ++ rest) := by
  cases text with
  | nil => exact halts
  | cons char others => exact begins

theorem Cuts.append {first second : List Char} {firstTokens secondTokens : List JsonToken}
    (left : Cuts first firstTokens) (right : Cuts second secondTokens)
    (apart : Halts continuesNumber second) :
    Cuts (first ++ second) (firstTokens ++ secondTokens) where
  short := by
    rw [List.length_append, List.length_append]
    exact Nat.add_le_add left.short right.short
  within := by
    intro fuel rest halts
    rw [List.length_append, Nat.add_assoc, List.append_assoc,
      left.within _ _ (halts_append apart halts), right.within _ _ halts, Option.map_map]
    congr 1
    funext others
    exact (List.append_assoc _ _ _).symm

/-- Blanks in front of a token are passed over. -/
theorem Cuts.behindBlanks {blanks text : List Char} {tokens : List JsonToken}
    (every : forall char, char ∈ blanks -> isBlank char) (cuts : Cuts text tokens) :
    Cuts (blanks ++ text) tokens where
  short := by
    rw [List.length_append]
    exact Nat.le_add_left_of_le cuts.short
  within := by
    intro fuel rest halts
    have skipped : forall (fuel : Nat) (input : List Char),
        tokensWithin fuel (blanks ++ input) = tokensWithin fuel input := by
      intro fuel input
      cases fuel <;> simp only [tokensWithin, List.dropWhile_append_of_pos every]
    rw [List.append_assoc, skipped, cuts.within fuel rest halts]

theorem cuts_nil : Cuts [] [] where
  short := Nat.le_refl 0
  within := by
    intro fuel rest _
    rw [List.nil_append, List.length_nil, Nat.zero_add]
    exact Option.map_id'.symm

theorem cuts_of_scan? {first : Char} {others : List Char} {token : JsonToken}
    (seen : isBlank first = false)
    (scanned : forall rest, Halts continuesNumber rest ->
      scan? (first :: others ++ rest) = some (token, rest)) :
    Cuts (first :: others) [token] where
  short := Nat.succ_le_succ (Nat.zero_le _)
  within := by
    intro fuel rest halts
    have shown : (first :: others ++ rest).dropWhile isBlank = first :: others ++ rest := by
      rw [List.cons_append, List.dropWhile_cons, seen]
      rfl
    rw [List.length_singleton, Nat.add_comm, tokensWithin, shown]
    simp only [List.cons_append] at scanned ⊢
    simp only [scanned rest halts]
    rfl

/-! ## Strings -/

theorem hexDigit?_digitChar {value : Nat} (small : value < 16) :
    hexDigit? (Nat.digitChar value) = some value := by
  revert small
  revert value
  decide

/-- The escape of a control by its number. -/
theorem escapedUnit?_control {code : Nat} (control : code < 0x20) :
    escapedUnit? '0' '0' (Nat.digitChar (code / 16)) (Nat.digitChar (code % 16)) =
      some (UInt16.ofNat code) := by
  have zero : hexDigit? '0' = some 0 := rfl
  have high : code / 16 < 16 := by
    omega
  have low : code % 16 < 16 := by
    omega
  have sum : 4096 * 0 + 256 * 0 + 16 * (code / 16) + code % 16 = code := by
    omega
  simp only [escapedUnit?, zero, hexDigit?_digitChar high, hexDigit?_digitChar low, sum]

theorem scanString_visible (done : List UInt16) {char : Char} (rest : List Char)
    (noQuote : char ≠ '"') (noBackslash : char ≠ '\\') (visible : ¬ char.toNat < 0x20) :
    scanString done (char :: rest) = scanString ((Utf16.units char).reverse ++ done) rest := by
  rw [scanString.eq_def]
  split
  · rename_i impossible
    cases impossible
  · rename_i same
    cases same
    exact absurd rfl noQuote
  · rename_i same
    cases same
    exact absurd rfl noBackslash
  · rename_i same
    cases same
    exact absurd rfl noBackslash
  · rename_i same
    cases same
    exact if_neg visible

/-- A character is scanned from its form, whatever follows it. -/
theorem scanString_escape (done : List UInt16) (char : Char) (rest : List Char) :
    scanString done (JsonDocument.escape char ++ rest) =
      scanString ((Utf16.units char).reverse ++ done) rest := by
  unfold JsonDocument.escape
  split
  · rename_i quote
    subst quote
    rfl
  split
  · rename_i backslash
    subst backslash
    rfl
  rename_i noQuote noBackslash
  -- The controls that have a letter of their own.
  iterate 5
    split
    · rename_i named
      subst named
      rfl
  split
  · rename_i control
    have single : Utf16.units char = [UInt16.ofNat char.toNat] := if_pos (by omega)
    simp only [List.cons_append, List.nil_append, scanString, escapedUnit?_control control, single,
      List.reverse_singleton]
  · rename_i visible
    exact scanString_visible done rest noQuote noBackslash visible

theorem scanString_escapes (done : List UInt16) (content rest : List Char) :
    scanString done (content.flatMap JsonDocument.escape ++ '"' :: rest) =
      some (done.reverse ++ Utf16.encode content, rest) := by
  induction content generalizing done with
  | nil =>
      rw [List.flatMap_nil, List.nil_append, scanString, Utf16.encode, List.flatMap_nil,
        List.append_nil]
  | cons char content inductionHypothesis =>
      rw [List.flatMap_cons, List.append_assoc, scanString_escape, inductionHypothesis,
        List.reverse_append, List.reverse_reverse, List.append_assoc]
      rfl

theorem cuts_quote (content : String) :
    Cuts (JsonDocument.quote content).toList [.string (Utf16.encode content.toList)] := by
  rw [JsonDocument.quote, String.toList_ofList]
  refine cuts_of_scan? rfl fun rest _ => ?_
  have scanned := scanString_escapes [] content.toList rest
  simp only [List.cons_append, List.append_assoc, List.nil_append, scan?, scanned, Option.map_some,
    List.reverse_nil]

/-! ## Numbers -/

/-- Only zero has a leading zero. -/
theorem head?_toDigits_ne_zero {value : Nat} (positive : 0 < value) :
    (Nat.toDigits 10 value).head? ≠ some '0' := by
  induction value using Nat.strongRecOn with
  | ind value inductionHypothesis =>
      by_cases small : value < 10
      · have digits : forall digit, digit < 10 -> 0 < digit ->
            [Nat.digitChar digit].head? ≠ some '0' := by
          decide
        rw [Nat.toDigits_of_lt_base small]
        exact digits value small positive
      · have fewer := inductionHypothesis (value / 10) (by omega) (by omega)
        rw [Nat.toDigits_of_base_le (by decide) (Nat.le_of_not_lt small),
          List.head?_append_of_ne_nil _ Nat.toDigits_ne_nil]
        exact fewer

theorem isBlank_of_isDigit {char : Char} (digit : char.isDigit) : isBlank char = false := by
  simp only [isBlank, Bool.or_eq_false_iff, beq_eq_false_iff_ne]
  refine ⟨⟨⟨?_, ?_⟩, ?_⟩, ?_⟩
  all_goals
    rintro rfl
    cases digit

theorem scan?_of_isDigit {first : Char} (digit : first.isDigit) (others : List Char) :
    scan? (first :: others) = scanNumber? false (first :: others) := by
  rw [scan?.eq_def]
  split
  · rename_i impossible
    cases impossible
  all_goals first
    | rfl
    | (rename_i same; cases same; cases digit)

theorem halts_isDigit {rest : List Char} (halts : Halts continuesNumber rest) :
    Halts Char.isDigit rest := by
  intro char begins
  have stopped := halts char begins
  rw [continuesNumber, Bool.or_eq_false_iff] at stopped
  exact stopped.1

theorem scanFraction?_of_halts {rest : List Char} (halts : Halts continuesNumber rest) :
    scanFraction? rest = some (false, rest) := by
  rw [scanFraction?.eq_def]
  split
  · cases halts '.' rfl
  · rfl

theorem scanExponent?_of_halts {rest : List Char} (halts : Halts continuesNumber rest) :
    scanExponent? rest = some (false, rest) := by
  rw [scanExponent?.eq_def]
  split
  · cases halts 'e' rfl
  · cases halts 'E' rfl
  · rfl

theorem scanNumber?_toDigits (value : Nat) {rest : List Char}
    (halts : Halts continuesNumber rest) :
    scanNumber? false (Nat.toDigits 10 value ++ rest) = some (.integer value, rest) := by
  have digits : scanDigits? (Nat.toDigits 10 value ++ rest) =
      some (Nat.toDigits 10 value, rest) := by
    have taken : (Nat.toDigits 10 value ++ rest).takeWhile Char.isDigit = Nat.toDigits 10 value :=
      (takeWhile_of_halts (fun _ => isDigit_of_mem_toDigits) (halts_isDigit halts)).1
    have nonempty : ¬ (Nat.toDigits 10 value).isEmpty :=
      List.isEmpty_iff.not.mpr Nat.toDigits_ne_nil
    simp only [scanDigits?, taken, if_neg nonempty, List.drop_left]
  have plain : ¬ ((Nat.toDigits 10 value).head? = some '0' ∧
      (Nat.toDigits 10 value).length ≠ 1) := by
    rintro ⟨zero, long⟩
    rcases Nat.eq_zero_or_pos value with rfl | positive
    · exact long rfl
    · exact head?_toDigits_ne_zero positive zero
  have magnitude : (Nat.toDigits 10 value).foldl
      (fun value digit => 10 * value + (digit.toNat - 48)) 0 = value :=
    Nat.ofDigitChars_ten_toDigits
  simp only [scanNumber?, digits, Option.bind_eq_bind, Option.bind_some, if_neg plain,
    scanFraction?_of_halts halts, scanExponent?_of_halts halts, magnitude]
  rfl

theorem cuts_toDigits (value : Nat) : Cuts (Nat.toDigits 10 value) [.integer value] := by
  cases shape : Nat.toDigits 10 value with
  | nil => exact absurd shape Nat.toDigits_ne_nil
  | cons first others =>
      have digit : first.isDigit := isDigit_of_mem_toDigits (shape ▸ List.mem_cons_self)
      refine cuts_of_scan? (isBlank_of_isDigit digit) fun rest halts => ?_
      rw [List.cons_append, scan?_of_isDigit digit, ← List.cons_append, ← shape]
      exact scanNumber?_toDigits value halts

/-! ## Containers -/

/-- A text of one character that is a token. -/
theorem cuts_sign {sign : String} {symbol : Char} {token : JsonToken}
    (shape : sign.toList = [symbol]) (seen : isBlank symbol = false)
    (scanned : forall rest, scan? (symbol :: rest) = some (token, rest)) :
    Cuts sign.toList [token] := by
  rw [shape]
  exact cuts_of_scan? seen fun rest _ => scanned rest

theorem isBlank_of_mem_lineBreak {level : Nat} {char : Char}
    (member : char ∈ (JsonDocument.lineBreak level).toList) : isBlank char := by
  rw [JsonDocument.lineBreak, String.toList_ofList] at member
  rcases List.mem_cons.mp member with rfl | blank
  · rfl
  · rw [List.eq_of_mem_replicate blank]
    rfl

theorem halts_cons {char : Char} (plain : continuesNumber char = false) (rest : List Char) :
    Halts continuesNumber (char :: rest) := by
  rintro other ⟨⟩
  exact plain

/-- A line break goes on no number. -/
theorem halts_lineBreak (level : Nat) (rest : List Char) :
    Halts continuesNumber ((JsonDocument.lineBreak level).toList ++ rest) := by
  rw [JsonDocument.lineBreak, String.toList_ofList]
  exact halts_cons rfl _

/-- Entries on lines of their own, with commas between them. -/
theorem cuts_intercalate (level : Nat) {entries : List String} {parts : List (List JsonToken)}
    (each : List.Forall₂ (fun entry part => Cuts entry.toList part) entries parts) :
    Cuts ((JsonDocument.lineBreak level).toList ++
        (String.intercalate ("," ++ JsonDocument.lineBreak level) entries).toList)
      (List.intercalate [.comma] parts) := by
  induction each with
  | nil => exact cuts_nil.behindBlanks fun _ => isBlank_of_mem_lineBreak
  | cons first others inductionHypothesis =>
      refine Cuts.behindBlanks (fun _ => isBlank_of_mem_lineBreak) ?_
      cases others with
      | nil =>
          rw [String.intercalate_singleton, List.intercalate_singleton]
          exact first
      | cons second others =>
          have comma : Cuts ",".toList [.comma] := @cuts_sign _ ',' _ rfl rfl fun _ => rfl
          have behind := comma.append inductionHypothesis (halts_lineBreak level _)
          have whole := first.append behind (halts_cons rfl _)
          rw [String.intercalate_cons_cons, List.intercalate_cons_cons]
          simpa only [String.toList_append, List.append_assoc] using whole

/-- The text of a container, given its brackets and the tokens of its entries. -/
theorem cuts_enclose (level : Nat) {opening closing : String} {left right : JsonToken}
    {entries : List String} {parts : List (List JsonToken)}
    (opens : Cuts opening.toList [left]) (closes : Cuts closing.toList [right])
    (plain : Halts continuesNumber closing.toList)
    (each : List.Forall₂ (fun entry part => Cuts entry.toList part) entries parts) :
    Cuts (JsonDocument.enclose level opening closing entries).toList
      (left :: (List.intercalate [.comma] parts ++ [right])) := by
  cases entries with
  | nil =>
      cases each
      have whole := opens.append closes plain
      simpa only [JsonDocument.enclose, List.isEmpty_nil, if_true, String.toList_append,
        List.intercalate_nil, List.cons_append, List.nil_append] using whole
  | cons entry entries =>
      have last := closes.behindBlanks fun _ => @isBlank_of_mem_lineBreak level _
      have inside := (cuts_intercalate (level + 1) each).append last (halts_lineBreak level _)
      rw [List.append_assoc] at inside
      have whole := opens.append inside (halts_lineBreak (level + 1) _)
      simpa only [JsonDocument.enclose, List.isEmpty_cons, Bool.false_eq_true, if_false,
        String.toList_append, List.append_assoc, List.cons_append, List.nil_append] using whole

end JsonToken

/-! ## Documents -/

namespace JsonDocument

mutual

/-- The tokens of a document. -/
def tokens : JsonDocument -> List JsonToken
  | number value => [.integer value.toNat]
  | boolean value => [.boolean value]
  | text content => [.string (Utf16.encode content.toList)]
  | list items => .openBracket :: (List.intercalate [.comma] (itemTokens items) ++ [.closeBracket])
  | record members =>
    .openBrace :: (List.intercalate [.comma] (memberTokens members) ++ [.closeBrace])

def itemTokens : List JsonDocument -> List (List JsonToken)
  | [] => []
  | item :: rest => item.tokens :: itemTokens rest

def memberTokens : List (String × JsonDocument) -> List (List JsonToken)
  | [] => []
  | (name, value) :: rest =>
    (.string (Utf16.encode name.toList) :: .colon :: value.tokens) :: memberTokens rest

end

mutual

theorem cuts_textAt (level : Nat) :
    (document : JsonDocument) -> JsonToken.Cuts (document.textAt level).toList document.tokens
  | number value => by
      have digits : (toString value).toList = Nat.toDigits 10 value.toNat := Nat.toList_repr
      rw [textAt, tokens, digits]
      exact JsonToken.cuts_toDigits value.toNat
  | boolean value => by
      rw [textAt, tokens]
      cases value with
      | true =>
          have letters : "true".toList = ['t', 'r', 'u', 'e'] := rfl
          rw [if_pos rfl, letters]
          exact JsonToken.cuts_of_scan? rfl fun _ _ => rfl
      | false =>
          have letters : "false".toList = ['f', 'a', 'l', 's', 'e'] := rfl
          rw [if_neg Bool.false_ne_true, letters]
          exact JsonToken.cuts_of_scan? rfl fun _ _ => rfl
  | text content => by
      rw [textAt, tokens]
      exact JsonToken.cuts_quote content
  | list items => by
      rw [textAt, tokens]
      exact JsonToken.cuts_enclose level (@JsonToken.cuts_sign _ '[' _ rfl rfl fun _ => rfl)
        (@JsonToken.cuts_sign _ ']' _ rfl rfl fun _ => rfl) (JsonToken.halts_cons rfl [])
        (cuts_itemTexts (level + 1) items)
  | record members => by
      rw [textAt, tokens]
      exact JsonToken.cuts_enclose level (@JsonToken.cuts_sign _ '\x7b' _ rfl rfl fun _ => rfl)
        (@JsonToken.cuts_sign _ '\x7d' _ rfl rfl fun _ => rfl) (JsonToken.halts_cons rfl [])
        (cuts_memberTexts (level + 1) members)

theorem cuts_itemTexts (level : Nat) :
    (items : List JsonDocument) ->
      List.Forall₂ (fun entry part => JsonToken.Cuts entry.toList part) (itemTexts level items)
        (itemTokens items)
  | [] => .nil
  | item :: rest => .cons (cuts_textAt level item) (cuts_itemTexts level rest)

theorem cuts_memberTexts (level : Nat) :
    (members : List (String × JsonDocument)) ->
      List.Forall₂ (fun entry part => JsonToken.Cuts entry.toList part) (memberTexts level members)
        (memberTokens members)
  | [] => .nil
  | (name, value) :: rest => by
      have colon : JsonToken.Cuts [':'] [.colon] := JsonToken.cuts_of_scan? rfl fun _ _ => rfl
      have blank : forall char, char ∈ [' '] -> JsonToken.isBlank char := by
        intro char member
        rw [List.mem_singleton.mp member]
        rfl
      have behind := colon.append ((cuts_textAt level value).behindBlanks blank)
        (JsonToken.halts_cons rfl _)
      have whole := (JsonToken.cuts_quote name).append behind (JsonToken.halts_cons rfl _)
      have sign : ": ".toList = [':', ' '] := rfl
      refine .cons ?_ (cuts_memberTexts level rest)
      simpa only [String.toList_append, sign, List.append_assoc, List.cons_append,
        List.nil_append] using whole

end

/-! ## The machine -/

mutual

/-- The value that a document is read as. -/
def value : JsonDocument -> JsonValue
  | number value => .integer value.toNat
  | boolean value => .boolean value
  | text content => .string (Utf16.encode content.toList)
  | list items => .array (itemValues items)
  | record members => .object (memberValues members)

def itemValues : List JsonDocument -> List JsonValue
  | [] => []
  | item :: rest => item.value :: itemValues rest

def memberValues : List (String × JsonDocument) -> List (List UInt16 × JsonValue)
  | [] => []
  | (name, value) :: rest => (Utf16.encode name.toList, value.value) :: memberValues rest

end

open JsonValue

theorem foldlM_last (machine : Machine) (token : JsonToken) :
    [token].foldlM Machine.step machine = machine.step token :=
  bind_pure _

theorem foldlM_cons {machine following : Machine} {token : JsonToken}
    (stepped : machine.step token = some following) (others : List JsonToken) :
    (token :: others).foldlM Machine.step machine = others.foldlM Machine.step following := by
  rw [List.foldlM_cons, stepped]
  rfl

theorem foldlM_append {machine following : Machine} {tokens : List JsonToken}
    (done : tokens.foldlM Machine.step machine = some following) (others : List JsonToken) :
    (tokens ++ others).foldlM Machine.step machine = others.foldlM Machine.step following := by
  rw [List.foldlM_append, done]
  rfl

/-- The entries of a container are taken one after another, if each is taken and
a comma makes room for the next.  The container has its last entry first. -/
theorem foldlM_intercalate {Entry : Type} {ready filled : List Entry -> Machine}
    (comma : forall done, (filled done).step .comma = some (ready done))
    {parts : List (List JsonToken)} {entries : List Entry}
    (each : List.Forall₂ (fun part entry => forall done,
      part.foldlM Machine.step (ready done) = some (filled (entry :: done))) parts entries)
    (nonempty : parts ≠ []) (done : List Entry) :
    (List.intercalate [.comma] parts).foldlM Machine.step (ready done) =
      some (filled (entries.reverse ++ done)) := by
  induction each generalizing done with
  | nil => exact absurd rfl nonempty
  | @cons part entry parts entries first others inductionHypothesis =>
      cases others with
      | nil =>
          rw [List.intercalate_singleton, first]
          rfl
      | cons second others =>
          rw [List.intercalate_cons_cons, List.append_assoc, foldlM_append (first done),
            List.singleton_append, foldlM_cons (comma _),
            inductionHypothesis (List.cons_ne_nil _ _), @List.reverse_cons _ entry,
            List.append_assoc]
          rfl

/-- The first item of a list may stand where the list may also end. -/
theorem foldlM_valueOrClose (item : JsonDocument) (rest : List JsonDocument)
    (frames : List Frame) (others : List JsonToken) :
    (List.intercalate [.comma] (itemTokens (item :: rest)) ++ others).foldlM Machine.step
        (.running .valueOrClose frames) =
      (List.intercalate [.comma] (itemTokens (item :: rest)) ++ others).foldlM Machine.step
        (.running .value frames) := by
  cases rest with
  | nil => cases item <;> rfl
  | cons second rest => cases item <;> rfl

/-- The same of the first name of a record. -/
theorem foldlM_nameOrClose (member : String × JsonDocument)
    (rest : List (String × JsonDocument)) (done : List (List UInt16 × JsonValue))
    (frames : List Frame) (others : List JsonToken) :
    (List.intercalate [.comma] (memberTokens (member :: rest)) ++ others).foldlM Machine.step
        (.running .nameOrClose (.object done :: frames)) =
      (List.intercalate [.comma] (memberTokens (member :: rest)) ++ others).foldlM Machine.step
        (.running .name (.object done :: frames)) := by
  rcases member with ⟨name, value⟩
  cases rest with
  | nil => rfl
  | cons second rest => rfl

mutual

/-- The tokens of a document lead from where a value may stand to where it has
been put. -/
theorem foldlM_tokens :
    (document : JsonDocument) -> (frames : List Frame) ->
      document.tokens.foldlM Machine.step (.running .value frames) =
        Machine.finish document.value frames
  | number value, frames => foldlM_last _ _
  | boolean value, frames => foldlM_last _ _
  | text content, frames => foldlM_last _ _
  | list [], frames => by
      rw [tokens, itemTokens, List.intercalate_nil, List.nil_append, foldlM_cons rfl, foldlM_last]
      rfl
  | list (item :: rest), frames => by
      have inside := @foldlM_intercalate _ (fun done => .running .value (.array done :: frames))
        (fun done => .running .commaOrClose (.array done :: frames)) (fun _ => rfl) _ _
        (forall_itemTokens frames (item :: rest)) (List.cons_ne_nil _ _) []
      rw [tokens, foldlM_cons rfl, foldlM_valueOrClose, foldlM_append inside, foldlM_last,
        List.append_nil]
      exact congrArg (fun items => Machine.finish (.array items) frames) (List.reverse_reverse _)
  | record [], frames => by
      rw [tokens, memberTokens, List.intercalate_nil, List.nil_append, foldlM_cons rfl, foldlM_last]
      rfl
  | record (member :: rest), frames => by
      have inside := @foldlM_intercalate _ (fun done => .running .name (.object done :: frames))
        (fun done => .running .commaOrClose (.object done :: frames)) (fun _ => rfl) _ _
        (forall_memberTokens frames (member :: rest)) (List.cons_ne_nil _ _) []
      rw [tokens, foldlM_cons rfl, foldlM_nameOrClose, foldlM_append inside, foldlM_last,
        List.append_nil]
      exact congrArg (fun members => Machine.finish (.object members) frames)
        (List.reverse_reverse _)

theorem forall_itemTokens (frames : List Frame) :
    (items : List JsonDocument) ->
      List.Forall₂ (fun part entry => forall done,
        part.foldlM Machine.step (.running .value (.array done :: frames)) =
          some (.running .commaOrClose (.array (entry :: done) :: frames)))
        (itemTokens items) (itemValues items)
  | [] => .nil
  | item :: rest =>
      .cons (fun done => foldlM_tokens item (.array done :: frames)) (forall_itemTokens frames rest)

theorem forall_memberTokens (frames : List Frame) :
    (members : List (String × JsonDocument)) ->
      List.Forall₂ (fun part entry => forall done,
        part.foldlM Machine.step (.running .name (.object done :: frames)) =
          some (.running .commaOrClose (.object (entry :: done) :: frames)))
        (memberTokens members) (memberValues members)
  | [] => .nil
  | (name, value) :: rest => by
      refine .cons (fun done => ?_) (forall_memberTokens frames rest)
      rw [foldlM_cons rfl, foldlM_cons rfl]
      exact foldlM_tokens value (.member done (Utf16.encode name.toList) :: frames)

end

/-! ## What is read -/

theorem text?_string (content : String) :
    (JsonValue.string (Utf16.encode content.toList)).text? = some content := by
  rw [JsonValue.text?, Utf16.decode?_encode, Option.map_some, String.ofList_toList]

mutual

theorem ofValue?_value : (document : JsonDocument) -> ofValue? document.value = some document
  | number value => by
      have bound := value.toNat_lt
      have fits : 0 ≤ (value.toNat : Int) ∧ (value.toNat : Int) < 18446744073709551616 := by
        omega
      rw [JsonDocument.value, ofValue?, if_pos fits, Int.toNat_natCast, UInt64.ofNat_toNat]
  | boolean value => rfl
  | text content => by
      rw [value, ofValue?, text?_string]
      rfl
  | list items => by
      rw [value, ofValue?, ofItems?_itemValues items]
      rfl
  | record members => by
      rw [value, ofValue?, ofMembers?_memberValues members]
      rfl

theorem ofItems?_itemValues :
    (items : List JsonDocument) -> ofItems? (itemValues items) = some items
  | [] => rfl
  | item :: rest => by
      rw [itemValues, ofItems?, ofValue?_value item, ofItems?_itemValues rest]
      rfl

theorem ofMembers?_memberValues :
    (members : List (String × JsonDocument)) -> ofMembers? (memberValues members) = some members
  | [] => rfl
  | (name, value) :: rest => by
      rw [memberValues, ofMembers?, text?_string, ofValue?_value value,
        ofMembers?_memberValues rest]
      rfl

end

/-- A written document is found again in its text. -/
theorem read?_render (document : JsonDocument) : read? document.render = some document := by
  have cut : JsonToken.tokens? document.render = some document.tokens :=
    (document.cuts_textAt 0).tokens?
  have taken : document.tokens.foldlM Machine.step Machine.start = some (.done document.value) :=
    document.foldlM_tokens []
  have parsed : JsonValue.parse? document.render = some document.value := by
    rw [JsonValue.parse?, cut, Option.bind_eq_bind, Option.bind_some, taken]
    rfl
  rw [read?, parsed]
  exact document.ofValue?_value

end JsonDocument
end Rpn
