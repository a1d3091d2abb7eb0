import Rpn.CommandLine.Request
import Rpn.Proofs.StandardFormats
import Rpn.Proofs.Tiling

/-!
# The answers to one request

The three operations load the same input, and each does something else with
it first: one decompiles it, one lists it, and one decompiles it and assembles
the tree again.  Main statement: they agree on every request
(`answers_agree`), whatever the formats are, if these do what is documented of
them.  An input that is not decompiled is refused by the first and the third
with the same words, and a listing has these words in the place of the
expression.  Of an input that is decompiled a listing has what the other two
answer.  A listing is text, and what it has is what is read from it.

The third operation has two more errors, that the tree is not assembled and
that its bytes are others.  Neither arises, because the limits under which the
input is decompiled are those under which its tree is assembled.
-/

namespace Rpn

namespace Formats

variable {formats : Formats}

theorem Lawful.encodeHex_nil (lawful : formats.Lawful) : formats.encodeHex [] = "" := by
  have twice := congrArg String.length (lawful.encodeHex_append [] [])
  rw [String.length_append, List.append_nil] at twice
  exact String.length_eq_zero_iff.mp (by omega)

/-- The digits of parts one after another are the digits of the whole. -/
theorem Lawful.join_map_encodeHex (lawful : formats.Lawful) (parts : List (List UInt8)) :
    String.join (parts.map formats.encodeHex) = formats.encodeHex parts.flatten := by
  induction parts with
  | nil => exact lawful.encodeHex_nil.symm
  | cons part rest inductionHypothesis =>
      rw [List.map_cons, String.join_cons, inductionHypothesis, List.flatten_cons,
        lawful.encodeHex_append]

end Formats

namespace JsonDocument

/-- The member of a name in a record. -/
def member? (name : String) : JsonDocument -> Option JsonDocument
  | record members => (members.find? fun member => member.1 == name).map Prod.snd
  | _ => none

end JsonDocument

/-! ## The document of a listing -/

namespace ListingReport

theorem ordered_expressionDocument (expression : ExpressionReport) :
    (expressionDocument expression).Ordered := by
  cases expression with
  | failed message => exact ⟨List.pairwise_singleton _ _, trivial, trivial⟩
  | decompiled text terminated peak =>
      have names : ["max_stack_depth", "terminated", "text"].Pairwise (· < ·) := by
        decide
      exact ⟨names, trivial, trivial, trivial, trivial⟩

theorem ordered_lines (formats : Formats) (lines : List ReportLine) :
    JsonDocument.OrderedItems (lines.map (lineDocument formats)) := by
  have names : ["bytes", "instruction", "offset"].Pairwise (· < ·) := by
    decide
  induction lines with
  | nil => trivial
  | cons line rest inductionHypothesis =>
      exact ⟨⟨names, trivial, trivial, trivial, trivial⟩, inductionHypothesis⟩

/-- The members of a listing stand in the order of their names. -/
theorem ordered_document (formats : Formats) (report : ListingReport) :
    (report.document formats).Ordered := by
  have names : ["expression", "instructions"].Pairwise (· < ·) := by
    decide
  exact ⟨names, ordered_expressionDocument report.expression,
    ordered_lines formats report.lines, trivial⟩

end ListingReport

open Decompiler

theorem exists_disassemble_of_decompile {arities : ArityTable} {options : DecompileOptions}
    {bytes : List UInt8} {decompiled : Decompiled}
    (done : decompile arities options bytes = .ok decompiled) :
    Exists fun entries => disassemble bytes = .ok entries := by
  have together := concord arities options bytes
  rw [done] at together
  generalize disassemble bytes = listing at together ⊢
  cases together with
  | decompiled => exact ⟨_, rfl⟩

theorem eq_ok_of_mapError {Error Other Value : Type} {computation : Except Error Value}
    {name : Error -> Other} {value : Value} (done : computation.mapError name = .ok value) :
    computation = .ok value := by
  cases computation with
  | error error => cases done
  | ok other =>
      cases done
      rfl

namespace Request

variable {formats : Formats} {files : FileReader} {request : Request} {loaded : Loaded}

/-- What a round trip without a change says. -/
def identicalText (length : Nat) (terminated : Bool) (depth : UInt64) : String :=
  s!"identical: {length} bytes, " ++ (if terminated then "terminated" else "unterminated") ++
    s!", max stack depth {depth}"

/-- A loaded input is decompiled, or refused for a reason found in its bytes.  In
the first case its tree is assembled to the input again. -/
theorem decompiled_cases (request : Request) (loaded : Loaded) :
    (Exists fun decompiled =>
      decompile loaded.commands.arities request.options loaded.bytes = .ok decompiled ∧
        request.decompiled loaded = .ok decompiled ∧
        decompiled.expr.assemble (assemblyOptions decompiled) none =
          .ok ⟨loaded.bytes, decompiled.peak⟩) ∨
      Exists fun cause =>
        decompile loaded.commands.arities request.options loaded.bytes = .error cause ∧
          request.decompiled loaded = .error (.notDecompiled cause) := by
  have same : request.decompiled loaded =
      (decompile loaded.commands.arities request.options loaded.bytes).mapError
        RequestError.notDecompiled := rfl
  rw [same]
  cases executed : decompile loaded.commands.arities request.options loaded.bytes with
  | error cause => exact Or.inr ⟨cause, rfl, rfl⟩
  | ok decompiled =>
      have ending := ends loaded.commands.arities request.options loaded.bytes
      rw [executed] at ending
      cases ending with
      | @decompiled expr last framing visited marked _ =>
          have admitted := visited.faithful.admitted expr List.mem_cons_self
          exact Or.inl ⟨_, rfl, rfl, visited.faithful.assemble marked admitted.withoutTable⟩

theorem answer_of_load_error {error : RequestError}
    (failed : request.load formats files = .error error) (operation : Operation) :
    request.answer formats files operation = .error error := by
  cases operation with
  | expression => simp only [answer, infixText, failed, bind, Except.bind]
  | listing => simp only [answer, listingText, listing, failed, bind, Except.bind]
  | roundTrip => simp only [answer, roundTripText, failed, bind, Except.bind]

theorem source_load_of_load (done : request.load formats files = .ok loaded) :
    request.source.load formats files = .ok loaded.bytes := by
  rw [load] at done
  cases found : request.source.load formats files with
  | error error =>
      rw [found] at done
      cases done
  | ok bytes =>
      rw [found] at done
      cases given : request.commandsPath? with
      | none =>
          rw [given] at done
          cases done
          rfl
      | some path =>
          rw [given] at done
          cases table : CommandTable.load formats files path with
          | error error =>
              simp only [table] at done
              cases done
          | ok commands =>
              simp only [table] at done
              cases done
              rfl

/-- The bytes that were loaded are those that the source names. -/
theorem bytes_of_load (done : request.load formats files = .ok loaded) :
    (forall text, request.source = .hex text ->
      formats.decodeHex (String.ofList (text.toList.filter fun char => !Blank.isBlank char)) =
        .ok loaded.bytes) ∧
    forall path, request.source = .file path -> files path = .ok loaded.bytes := by
  have found := source_load_of_load done
  refine ⟨fun text source => ?_, fun path source => ?_⟩
  · rw [source] at found
    exact eq_ok_of_mapError found
  · rw [source] at found
    exact eq_ok_of_mapError found

theorem infixText_of_load (done : request.load formats files = .ok loaded) :
    request.infixText formats files =
      (request.decompiled loaded).map fun decompiled =>
        decompiled.expr.text loaded.commands.naming := by
  simp only [infixText, done, bind, Except.bind]
  cases request.decompiled loaded with
  | error error => rfl
  | ok decompiled => rfl

theorem listing_of_load (done : request.load formats files = .ok loaded) :
    request.listing formats files =
      ((disassemble loaded.bytes).mapError RequestError.notDisassembled).map fun entries =>
        ⟨entries.map (reportLine loaded.bytes), request.expressionReport loaded⟩ := by
  simp only [listing, done, bind, Except.bind]
  cases disassemble loaded.bytes with
  | error error => rfl
  | ok entries => rfl

/-- The stack that an input needs is within the default limit. -/
theorem peak_le {decompiled : Decompiled} {bytes : List UInt8}
    (assembled : decompiled.expr.assemble (assemblyOptions decompiled) none =
      .ok ⟨bytes, decompiled.peak⟩) : decompiled.peak ≤ 256 := by
  rcases Expr.assemble_eq_ok_iff.mp assembled with ⟨_, _, enough, same⟩
  rw [(Assembled.mk.inj same).2]
  exact enough

/-- A tree that was decompiled from the input is always assembled to the input
again. -/
theorem roundTripText_of_load (done : request.load formats files = .ok loaded) :
    request.roundTripText formats files =
      (request.decompiled loaded).map fun decompiled =>
        identicalText loaded.bytes.length (decide (decompiled.framing = .terminated))
          (UInt64.ofNat decompiled.peak) := by
  simp only [roundTripText, done, bind, Except.bind]
  rcases request.decompiled_cases loaded with ⟨decompiled, _, same, assembled⟩ | ⟨cause, _, same⟩
  · have word : decompiled.framing.name =
        if decide (decompiled.framing = .terminated) then "terminated" else "unterminated" := by
      cases decompiled.framing <;> rfl
    have depth : (UInt64.ofNat decompiled.peak).toNat = decompiled.peak := by
      have small := peak_le assembled
      rw [UInt64.toNat_ofNat']
      omega
    have shown : toString (UInt64.ofNat decompiled.peak) = toString decompiled.peak :=
      congrArg toString depth
    simp only [same, assembled, Except.mapError, Except.map, if_true, identicalText, word, shown]
  · simp only [same]
    rfl

/-- The expression of a loaded input as the three operations give it. -/
theorem replies_cases (formats : Formats) (done : request.load formats files = .ok loaded) :
    (Exists fun decompiled => Exists fun shown => Exists fun terminated => Exists fun depth =>
      decompile loaded.commands.arities request.options loaded.bytes = .ok decompiled ∧
        request.reply formats files .expression = .ok shown ∧
        request.reply formats files .roundTrip =
          .ok (identicalText loaded.bytes.length terminated depth) ∧
        ListingReport.expressionDocument (request.expressionReport loaded) =
          .record [("max_stack_depth", .number depth), ("terminated", .boolean terminated),
            ("text", .text shown)]) ∨
      Exists fun cause =>
        decompile loaded.commands.arities request.options loaded.bytes = .error cause ∧
          request.answer formats files .expression = .error (.notDecompiled cause) ∧
          request.answer formats files .roundTrip = .error (.notDecompiled cause) ∧
          ListingReport.expressionDocument (request.expressionReport loaded) =
            .record [("error", .text ("Unable to decompile: " ++ cause.message))] := by
  simp only [reply, answer, infixText_of_load done, roundTripText_of_load done, expressionReport]
  rcases request.decompiled_cases loaded with
    ⟨decompiled, executed, same, _⟩ | ⟨cause, executed, same⟩
  · rw [same]
    exact Or.inl ⟨decompiled, _, _, _, executed, rfl, rfl, rfl⟩
  · rw [same]
    exact Or.inr ⟨cause, executed, rfl, rfl, rfl⟩

/-- The expression in a listing is what the other two operations answer. -/
theorem expressionDocument_iff (formats : Formats)
    (done : request.load formats files = .ok loaded) :
    (forall message,
      ListingReport.expressionDocument (request.expressionReport loaded) =
          .record [("error", .text message)] ↔
        request.reply formats files .expression = .error message) ∧
    forall shown,
      request.reply formats files .expression = .ok shown ↔
        Exists fun terminated => Exists fun depth =>
          ListingReport.expressionDocument (request.expressionReport loaded) =
            .record [("max_stack_depth", .number depth), ("terminated", .boolean terminated),
              ("text", .text shown)] ∧
          request.reply formats files .roundTrip =
            .ok (identicalText loaded.bytes.length terminated depth) := by
  rcases replies_cases formats done with
    ⟨_, shown, terminated, depth, _, first, third, shape⟩ | ⟨cause, _, first, _, shape⟩
  · rw [first, third, shape]
    refine ⟨fun message => ⟨?_, ?_⟩, fun other => ⟨?_, ?_⟩⟩
    · intro impossible
      simp at impossible
    · intro impossible
      cases impossible
    · rintro ⟨⟩
      exact ⟨terminated, depth, rfl, rfl⟩
    · rintro ⟨_, _, same, _⟩
      cases same
      rfl
  · rw [reply, first, shape]
    refine ⟨fun message => ⟨?_, ?_⟩, fun other => ⟨?_, ?_⟩⟩
    · rintro ⟨⟩
      rfl
    · rintro ⟨⟩
      rfl
    · intro impossible
      cases impossible
    · rintro ⟨_, _, impossible, _⟩
      simp at impossible

/-- A listing that can be made is found again in its text. -/
theorem listing_cases (lawful : formats.Lawful) (done : request.load formats files = .ok loaded) :
    (Exists fun entries => Exists fun text =>
      disassemble loaded.bytes = .ok entries ∧ request.listingText formats files = .ok text ∧
        formats.readJson? text = some (ListingReport.document formats
          ⟨entries.map (reportLine loaded.bytes), request.expressionReport loaded⟩)) ∨
      Exists fun cause => disassemble loaded.bytes = .error cause ∧
        request.listingText formats files = .error (.notDisassembled cause) := by
  rw [listingText, listing_of_load done]
  cases disassemble loaded.bytes with
  | error cause => exact Or.inr ⟨cause, rfl, rfl⟩
  | ok entries =>
      let report : ListingReport :=
        ⟨entries.map (reportLine loaded.bytes), request.expressionReport loaded⟩
      rcases lawful.readJson?_writeJson _ (report.ordered_document formats) with
        ⟨text, written, found⟩
      exact Or.inl ⟨entries, text, rfl, congrArg (Except.mapError _) written, found⟩

/-- The lines of a listing have the bytes of the input, each byte in one line. -/
theorem exists_codes (lawful : formats.Lawful) {bytes : List UInt8}
    {entries : List ListedInstruction} (listed : disassemble bytes = .ok entries) :
    Exists fun codes =>
      (entries.map (reportLine bytes)).map
          (fun line => (ListingReport.lineDocument formats line).member? "bytes") =
        codes.map (fun code => some (.text code)) ∧
      String.join codes = formats.encodeHex bytes := by
  have parts : (entries.map (ListedInstruction.slice bytes)).flatten = bytes := by
    rw [← List.flatMap_def, (tiles_of_disassemble listed).flatMap_slice, List.drop_zero]
  refine ⟨(entries.map (ListedInstruction.slice bytes)).map formats.encodeHex, ?_, ?_⟩
  · simp only [List.map_map]
    rfl
  · rw [lawful.join_map_encodeHex, parts]

end Request

/-- The three operations agree on every request.  What fails in loading fails
for all with the same words.  What is loaded has the bytes that the source
names.  Showing the expression and the round trip fail with the same words and
only because the input is not decompiled, and then only may the listing fail.
What is read from the text of a listing has the bytes of the input in its lines
and for the expression either the words of the other two or what they show. -/
theorem answers_agree (formats : Formats) (lawful : formats.Lawful) (files : FileReader)
    (request : Request) :
    (forall error, request.load formats files = .error error ->
      forall operation, request.reply formats files operation = .error error.message) ∧
    forall loaded, request.load formats files = .ok loaded ->
      (forall text, request.source = .hex text ->
        formats.decodeHex (String.ofList (text.toList.filter fun char => !Blank.isBlank char)) =
          .ok loaded.bytes) ∧
      (forall path, request.source = .file path -> files path = .ok loaded.bytes) ∧
      (forall message,
        request.reply formats files .expression = .error message ↔
          request.reply formats files .roundTrip = .error message) ∧
      (forall error, request.answer formats files .roundTrip = .error error ->
        Exists fun cause => error = .notDecompiled cause ∧
          error.message = "Unable to decompile: " ++ cause.message ∧
          decompile loaded.commands.arities request.options loaded.bytes = .error cause) ∧
      (forall message, request.reply formats files .listing = .error message ->
        Exists fun other => request.reply formats files .expression = .error other) ∧
      forall text, request.reply formats files .listing = .ok text ->
        Exists fun expression => Exists fun items => Exists fun codes =>
          formats.readJson? text =
              some (.record [("expression", expression), ("instructions", .list items)]) ∧
            items.map (JsonDocument.member? "bytes") = codes.map (fun code => some (.text code)) ∧
            String.join codes = formats.encodeHex loaded.bytes ∧
            formats.decodeHex (String.join codes) = .ok loaded.bytes ∧
            (forall message,
              expression = .record [("error", .text message)] ↔
                request.reply formats files .expression = .error message) ∧
            forall shown,
              request.reply formats files .expression = .ok shown ↔
                Exists fun terminated : Bool => Exists fun depth : UInt64 =>
                  expression = .record [("max_stack_depth", .number depth),
                    ("terminated", .boolean terminated), ("text", .text shown)] ∧
                  request.reply formats files .roundTrip =
                    .ok (s!"identical: {loaded.bytes.length} bytes, " ++
                      (if terminated then "terminated" else "unterminated") ++
                      s!", max stack depth {depth}") := by
  refine ⟨fun error failed operation => ?_, fun loaded done =>
    ⟨(Request.bytes_of_load done).1, (Request.bytes_of_load done).2, ?_, ?_, ?_, ?_⟩⟩
  · rw [Request.reply, Request.answer_of_load_error failed]
    rfl
  · intro message
    rcases Request.replies_cases formats done with
      ⟨_, _, _, _, _, first, third, _⟩ | ⟨_, _, first, third, _⟩
    · rw [first, third]
      exact ⟨nofun, nofun⟩
    · rw [Request.reply, Request.reply, first, third]
  · intro error failed
    rcases Request.replies_cases formats done with
      ⟨_, _, _, _, _, _, third, _⟩ | ⟨cause, executed, _, third, _⟩
    · rw [Request.reply, failed] at third
      cases third
    · cases third.symm.trans failed
      exact ⟨cause, rfl, rfl, executed⟩
  · intro message failed
    rcases Request.replies_cases formats done with
      ⟨_, _, _, _, executed, _, _, _⟩ | ⟨cause, _, first, _, _⟩
    · rcases exists_disassemble_of_decompile executed with ⟨entries, listed⟩
      rcases Request.listing_cases lawful done with ⟨_, _, _, second, _⟩ | ⟨_, refused, _⟩
      · rw [Request.reply, Request.answer, second] at failed
        cases failed
      · cases listed.symm.trans refused
    · exact ⟨_, congrArg (Except.mapError RequestError.message) first⟩
  · intro text answered
    rcases Request.listing_cases lawful done with
      ⟨entries, other, listed, second, found⟩ | ⟨_, _, second⟩
    · rw [Request.reply, Request.answer, second] at answered
      cases answered
      rcases Request.exists_codes lawful listed with ⟨codes, fields, joined⟩
      have whole : formats.decodeHex (String.join codes) = .ok loaded.bytes := by
        rw [joined]
        exact lawful.decodeHex_encodeHex loaded.bytes
      refine ⟨_, _, codes, found, ?_, joined, whole, Request.expressionDocument_iff formats done⟩
      rw [List.map_map]
      exact fields
    · rw [Request.reply, Request.answer, second] at answered
      cases answered

/-- A call of a command that the metadata name, in digits of both cases with
blanks between them. -/
def namedCall : Request :=
  ⟨.hex "8B 06 0c000000 A1", some "commands.json", true⟩

/-- One file, with the metadata. -/
def metadataFile : FileReader := fun path =>
  if path = "commands.json" then .ok "[[[6,12,\"go\",0]]]".toUTF8.toList else .error .notFound

/-- What a listing of the call has. -/
def namedCallListing : JsonDocument :=
  .record [
    ("expression", .record [
      ("max_stack_depth", .number 1), ("terminated", .boolean true), ("text", .text "go()")]),
    ("instructions", .list [
      .record [("bytes", .text "8b060c000000"), ("instruction", .text "CALL_COMMAND 6:12"),
        ("offset", .number 0)],
      .record [("bytes", .text "a1"), ("instruction", .text "END"), ("offset", .number 6)]])]

/-- Its text. -/
def namedCallText : String :=
  "\x7b\n" ++
  "  \"expression\": \x7b\n" ++
  "    \"max_stack_depth\": 1,\n" ++
  "    \"terminated\": true,\n" ++
  "    \"text\": \"go()\"\n" ++
  "  \x7d,\n" ++
  "  \"instructions\": [\n" ++
  "    \x7b\n" ++
  "      \"bytes\": \"8b060c000000\",\n" ++
  "      \"instruction\": \"CALL_COMMAND 6:12\",\n" ++
  "      \"offset\": 0\n" ++
  "    \x7d,\n" ++
  "    \x7b\n" ++
  "      \"bytes\": \"a1\",\n" ++
  "      \"instruction\": \"END\",\n" ++
  "      \"offset\": 6\n" ++
  "    \x7d\n" ++
  "  ]\n" ++
  "\x7d"

/-- Two numbers and nothing to combine them. -/
def twoNumbers : Request :=
  ⟨.hex "4142", none, false⟩

theorem answers_agree_namedCall :
    namedCall.load .standard metadataFile =
        .ok ⟨[0x8B, 0x06, 0x0C, 0x00, 0x00, 0x00, 0xA1], ⟨[⟨6, 12, some "go", 0⟩]⟩⟩ ∧
      Formats.standard.decodeHex "8B060c000000A1" =
        .ok [0x8B, 0x06, 0x0C, 0x00, 0x00, 0x00, 0xA1] ∧
      namedCall.reply .standard metadataFile .listing = .ok namedCallText ∧
      Formats.standard.readJson? namedCallText = some namedCallListing ∧
      Formats.standard.decodeHex (String.join ["8b060c000000", "a1"]) =
        .ok [0x8B, 0x06, 0x0C, 0x00, 0x00, 0x00, 0xA1] ∧
      namedCall.reply .standard metadataFile .expression = .ok "go()" ∧
      namedCall.reply .standard metadataFile .roundTrip =
        .ok "identical: 7 bytes, terminated, max stack depth 1" ∧
      twoNumbers.reply .standard metadataFile .roundTrip =
        .error "Unable to decompile: unbalanced expression: 2 values remain on the stack" ∧
      forall operation, (Request.mk (.hex "4") none false).reply .standard metadataFile operation =
        .error "Invalid hex input: Odd number of digits" := by
  have loaded : namedCall.load .standard metadataFile =
      .ok ⟨[0x8B, 0x06, 0x0C, 0x00, 0x00, 0x00, 0xA1], ⟨[⟨6, 12, some "go", 0⟩]⟩⟩ := by
    decide +kernel
  have listed : namedCall.reply .standard metadataFile .listing = .ok namedCallText := by
    decide +kernel
  have shown : namedCall.reply .standard metadataFile .expression = .ok "go()" := by
    decide +kernel
  have pair : twoNumbers.load .standard metadataFile = .ok ⟨[0x41, 0x42], .empty⟩ := by
    decide +kernel
  have unbalanced : twoNumbers.reply .standard metadataFile .expression =
      .error "Unable to decompile: unbalanced expression: 2 values remain on the stack" := by
    decide +kernel
  have odd : (Request.mk (.hex "4") none false).load .standard metadataFile =
      .error (.invalidHex "Odd number of digits") := by
    decide +kernel
  have agreement := answers_agree .standard Formats.lawful_standard metadataFile
  rcases (agreement namedCall).2 _ loaded with ⟨digits, _, _, _, _, answering⟩
  rcases answering _ listed with ⟨expression, items, codes, found, fields, _, whole, _, showing⟩
  rcases (showing "go()").mp shown with ⟨terminated, depth, shape, third⟩
  have rendered : namedCallListing.render = namedCallText := by
    decide +kernel
  have read := Formats.readJson?_standard namedCallListing
  rw [rendered] at read
  have same := Option.some.inj (read.symm.trans found)
  simp only [namedCallListing, JsonDocument.record.injEq, List.cons.injEq, Prod.mk.injEq, true_and,
    and_true, JsonDocument.list.injEq] at same
  rcases same with ⟨rfl, rfl⟩
  have injective : Function.Injective fun code => some (JsonDocument.text code) :=
    fun _ _ same => JsonDocument.text.inj (Option.some.inj same)
  have codes_eq : ["8b060c000000", "a1"] = codes := List.map_injective_iff.mpr injective fields
  simp only [JsonDocument.record.injEq, List.cons.injEq, Prod.mk.injEq, JsonDocument.number.injEq,
    JsonDocument.boolean.injEq, true_and, and_true] at shape
  rcases shape with ⟨rfl, rfl⟩
  rw [← codes_eq] at whole
  have refused := ((agreement twoNumbers).2 _ pair).2.2.1 _ |>.mp unbalanced
  have named : String.ofList
      ("8B 06 0c000000 A1".toList.filter fun char => !Blank.isBlank char) = "8B060c000000A1" := by
    decide +kernel
  have source := digits _ rfl
  rw [named] at source
  refine ⟨loaded, source, listed, read, whole, shown, third.trans ?_, refused,
    (agreement _).1 _ odd⟩
  decide +kernel

end Rpn
