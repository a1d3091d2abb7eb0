import Rpn.CommandLine.Request
import Rpn.CommandLine.StandardFormats
import Rpn.Proofs.Guarded.Assembling
import Rpn.Proofs.Guarded.Execution

/-!
# Nothing goes wrong

Main statement: under guards, reading, listing, decompiling, assembling and
showing a listing do what they do without them (`trapFree`).  So none of them
meets a trap (`ne_trap`): no index and no part of a list is out of range, no sum
or difference leaves its word, no number is cut down to a word that does not
hold it, the simulated stack has what is taken off it, and every loop moves on.

Buffers have fewer than 2^63 bytes and trees fewer than 2^64 nodes, as they do
in any memory that 64 bits address.  Tables and limits may be any.
-/

namespace Rpn
namespace Guarded

variable {Error Value : Type}

/-! ## Showing a listing -/

/-- The line of an instruction, with its part of the buffer. -/
def reportLine (bytes : List UInt8) (entry : ListedInstruction) : Guarded Error ReportLine := do
  let last ← addSize entry.offset entry.length
  let part ← slice bytes entry.offset last
  .ok ⟨entry.offset, part, entry.instruction.text⟩

/-- The errors of a computation as answers.  A trap stays one. -/
def attempt {Other : Type} : Guarded Error Value -> Guarded Other (Except Error Value)
  | .ok value => .ok (.ok value)
  | .error (.error error) => .ok (.error error)
  | .error (.trap trap) => .error (.trap trap)

/-- What a listing says of an outcome. -/
def expressionReport (loaded : Loaded) (outcome : Except DecompileError Decompiled) :
    ExpressionReport :=
  match outcome.mapError RequestError.notDecompiled with
  | .error error => .failed error.message
  | .ok decompiled =>
    .decompiled (decompiled.expr.text loaded.commands.naming)
      (decide (decompiled.framing = .terminated)) decompiled.peak

/-- The listing of a request as indented JSON. -/
def listingText (formats : Formats) (files : FileReader) (request : Request) :
    Guarded RequestError String := do
  let loaded ← lift (request.load formats files)
  let entries ← rename .notDisassembled (disassemble loaded.bytes)
  let lines ← entries.mapM (reportLine loaded.bytes)
  let outcome ← attempt (decompile loaded.commands.arities request.options loaded.bytes)
  let report : ListingReport := ⟨lines, expressionReport loaded outcome⟩
  lift ((formats.writeJson (report.document formats)).mapError .unwritableListing)

/-! ## The guards of a listing -/

theorem attempt_lift {Other : Type} (computation : Except Error Value) :
    (attempt (lift computation) : Guarded Other (Except Error Value)) = .ok computation := by
  cases computation with
  | error error => rfl
  | ok value => rfl

/-- The entries of a tiled buffer lie within it, so their parts are there. -/
theorem mapM_reportLine {bytes : List UInt8} (small : bytes.length < bufferLimit) {offset : Nat}
    {entries : List ListedInstruction} (tiles : Tiles bytes offset entries) :
    (entries.mapM (reportLine bytes) : Guarded Error (List ReportLine)) =
      .ok (entries.map (Request.reportLine bytes)) := by
  induction tiles with
  | done => rfl
  | @entry entry rest _ within _ _ _ inductionHypothesis =>
      have room : entry.offset + entry.length < sizeLimit := by
        rw [bufferLimit] at small
        rw [sizeLimit]
        omega
      have inside : entry.offset ≤ entry.offset + entry.length ∧
          entry.offset + entry.length ≤ bytes.length :=
        ⟨Nat.le_add_right _ _, within⟩
      have line : (reportLine bytes entry : Guarded Error ReportLine) =
          .ok (Request.reportLine bytes entry) := by
        rw [reportLine, addSize_eq room, ok_bind, slice_eq inside, ok_bind,
          Nat.add_sub_cancel_left]
        rfl
      rw [List.mapM_cons, line, ok_bind, inductionHypothesis]
      rfl

theorem listingText_eq {formats : Formats} {files : FileReader} {request : Request}
    (small : forall loaded, request.load formats files = .ok loaded ->
      loaded.bytes.length < bufferLimit) :
    listingText formats files request = lift (request.listingText formats files) := by
  rw [listingText, Request.listingText, Request.listing, bind_assoc]
  refine bind_lift fun loaded found => ?_
  have fits := small loaded found
  rw [disassemble_eq fits, decompile_eq fits, rename_lift]
  cases listed : Rpn.disassemble loaded.bytes with
  | error error => rfl
  | ok entries =>
      have lines := @mapM_reportLine RequestError _ fits 0 entries (tiles_of_disassemble listed)
      simp only [Except.mapError, lift_ok, ok_bind, lines, attempt_lift]
      rfl

/-- No operation goes wrong.  Under guards, each function does what it does
without them. -/
theorem trapFree :
    (forall cursor : Cursor, cursor.bytes.length < bufferLimit ->
      fetch cursor.bytes cursor.position =
        lift (cursor.read.1.map fun found => ⟨found.1, found.2, cursor.read.2.position⟩)) ∧
    (forall bytes : List UInt8, bytes.length < bufferLimit ->
      disassemble bytes = lift (Rpn.disassemble bytes)) ∧
    (forall (arities : ArityTable) (options : DecompileOptions) (bytes : List UInt8),
      bytes.length < bufferLimit ->
        decompile arities options bytes = lift (Rpn.decompile arities options bytes)) ∧
    (forall (options : AssemblyOptions) (arities? : Option ArityTable) (expr : Expr),
      expr.nodeCount < sizeLimit ->
        assemble options arities? expr = lift (expr.assemble options arities?)) ∧
    (forall (formats : Formats) (files : FileReader) (request : Request),
      (forall loaded, request.load formats files = .ok loaded ->
        loaded.bytes.length < bufferLimit) ->
        listingText formats files request = lift (request.listingText formats files)) := by
  refine ⟨fun cursor small => ?_, fun bytes small => ?_, fun arities options bytes small => ?_,
    fun options arities? expr few => ?_, fun formats files request small => ?_⟩
  · exact fetch_cursor small
  · exact disassemble_eq small
  · exact decompile_eq small
  · exact assemble_eq few
  · exact listingText_eq small

/-- The input of an integer of four bytes of which one is there. -/
def cutInteger : Request :=
  ⟨.hex "82 2C", none, false⟩

theorem trapFree_surrogateCall :
    surrogateCallBytes.length < bufferLimit ∧ surrogateCall.nodeCount < sizeLimit ∧
      fetch surrogateCallBytes 9 = .ok ⟨.push (.int (-1) .inline), 1, 10⟩ ∧
      disassemble [0xB6, 0x85, 0xA1, 0x41] = fail ⟨3, .trailingBytes 1⟩ ∧
      decompile (.ofRows [(6, 12, 2)]) ⟨3, 3, true⟩ surrogateCallBytes =
        .ok ⟨surrogateCall, .terminated, 3⟩ ∧
      assemble ⟨.terminated, 3, 3⟩ none surrogateCall = .ok ⟨surrogateCallBytes, 3⟩ ∧
      cutInteger.load .standard (fun _ => .error .notFound) = .ok ⟨[0x82, 0x2C], .empty⟩ ∧
      listingText .standard (fun _ => .error .notFound) cutInteger =
        fail (.notDisassembled ⟨0, .truncated 0x82 4 1⟩) := by
  have small : surrogateCallBytes.length < bufferLimit := by decide +kernel
  have few : surrogateCall.nodeCount < sizeLimit := by decide +kernel
  have loaded : cutInteger.load .standard (fun _ => .error .notFound) =
      .ok ⟨[0x82, 0x2C], .empty⟩ := by
    decide +kernel
  have cut : cutInteger.listingText .standard (fun _ => .error .notFound) =
      .error (.notDisassembled ⟨0, .truncated 0x82 4 1⟩) := by
    decide +kernel
  have done : Rpn.decompile (.ofRows [(6, 12, 2)]) ⟨3, 3, true⟩ surrogateCallBytes =
      .ok ⟨surrogateCall, .terminated, 3⟩ := by
    decide +kernel
  have written : surrogateCall.assemble ⟨.terminated, 3, 3⟩ none =
      .ok ⟨surrogateCallBytes, 3⟩ := by
    decide +kernel
  have listed : Rpn.disassemble [0xB6, 0x85, 0xA1, 0x41] = .error ⟨3, .trailingBytes 1⟩ := by
    decide +kernel
  have single : Cursor.read ⟨surrogateCallBytes, 9, by decide⟩ =
      (.ok (.push (.int (-1) .inline), 1), ⟨surrogateCallBytes, 10, by decide⟩) := by
    rw [Cursor.read_eq]
    rfl
  rcases trapFree with ⟨fetched, listing, decompiled, assembled, shown⟩
  refine ⟨small, few, ?_, ?_, ?_, ?_, loaded, ?_⟩
  · refine (fetched ⟨surrogateCallBytes, 9, by decide⟩ small).trans ?_
    rw [single]
    rfl
  · exact (listing _ (by decide)).trans (congrArg lift listed)
  · exact (decompiled _ _ _ small).trans (congrArg lift done)
  · exact (assembled _ _ _ few).trans (congrArg lift written)
  · refine (shown _ _ _ fun other found => ?_).trans (congrArg lift cut)
    cases loaded.symm.trans found
    decide

/-- No operation meets a trap, whatever the input. -/
theorem ne_trap (reason : Trap) :
    (forall cursor : Cursor, cursor.bytes.length < bufferLimit ->
      fetch cursor.bytes cursor.position ≠ trap reason) ∧
    (forall bytes : List UInt8, bytes.length < bufferLimit ->
      disassemble bytes ≠ trap reason) ∧
    (forall (arities : ArityTable) (options : DecompileOptions) (bytes : List UInt8),
      bytes.length < bufferLimit -> decompile arities options bytes ≠ trap reason) ∧
    (forall (options : AssemblyOptions) (arities? : Option ArityTable) (expr : Expr),
      expr.nodeCount < sizeLimit -> assemble options arities? expr ≠ trap reason) ∧
    (forall (formats : Formats) (files : FileReader) (request : Request),
      (forall loaded, request.load formats files = .ok loaded ->
        loaded.bytes.length < bufferLimit) ->
        listingText formats files request ≠ trap reason) := by
  refine ⟨fun cursor small => ?_, fun bytes small => ?_, fun arities options bytes small => ?_,
    fun options arities? expr few => ?_, fun formats files request small => ?_⟩
  · rw [fetch_cursor small]
    exact lift_ne_trap _ reason
  · rw [disassemble_eq small]
    exact lift_ne_trap _ reason
  · rw [decompile_eq small]
    exact lift_ne_trap _ reason
  · rw [assemble_eq few]
    exact lift_ne_trap _ reason
  · rw [listingText_eq small]
    exact lift_ne_trap _ reason

end Guarded
end Rpn
