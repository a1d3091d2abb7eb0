import Rpn.Assembly
import Rpn.CommandLine.Files
import Rpn.CommandLine.Formats
import Rpn.Decompilation
import Rpn.Disassembly
import Rpn.Text.Blank

/-!
# Requests

A request names its input, hexadecimal text or a file, and perhaps a file of
command metadata.  Three operations answer it: showing the expression, listing
the instructions, and checking that the assembled tree has the bytes of the
input.

The input is loaded before the metadata, and both before anything is decoded,
so a fault in loading is the same for every operation.
-/

namespace Rpn

/-- Where the bytes come from. -/
inductive Source
  | hex (text : String)
  | file (path : String)

/-- An input and how it is to be read. -/
structure Request where
  source : Source
  commandsPath? : Option String := none
  requireTerminator : Bool := false

/-- Why a request is not answered. -/
inductive RequestError
  | invalidHex (reason : String)
  | unreadableInput (path : String) (error : FileError)
  | unreadableCommands (path : String) (error : FileError)
  /-- The metadata are not text in UTF-8. -/
  | commandsNotText (path : String)
  | invalidCommands (path reason : String)
  | notDecompiled (error : DecompileError)
  | notDisassembled (error : StreamError)
  | unwritableListing (reason : String)
  | notAssembled (error : AssemblyError)
  /-- The digits of the input, and those of what became of it. -/
  | changed (before after : String)
  deriving DecidableEq

namespace RequestError

/-- The error in words. -/
def message : RequestError -> String
  | invalidHex reason => "Invalid hex input: " ++ reason
  | unreadableInput path error => "Unable to read " ++ path ++ ": " ++ error.message
  | unreadableCommands path error =>
    "Unable to read command metadata " ++ path ++ ": " ++ error.message
  | commandsNotText path =>
    "Unable to read command metadata " ++ path ++ ": stream did not contain valid UTF-8"
  | invalidCommands path reason => "Invalid command metadata " ++ path ++ ": " ++ reason
  | notDecompiled error => "Unable to decompile: " ++ error.message
  | notDisassembled error => "Unable to disassemble: " ++ error.message
  | unwritableListing reason => "Unable to write listing: " ++ reason
  | notAssembled error => "Unable to encode: " ++ error.message
  | changed before after =>
    "Round trip changed the bytes: " ++ before ++ " became " ++ after

end RequestError

namespace Source

/-- The bytes of a source.  Blanks anywhere between digits do not count. -/
def load (formats : Formats) (files : FileReader) : Source -> Except RequestError (List UInt8)
  | hex text =>
    let digits := String.ofList (text.toList.filter fun char => !Blank.isBlank char)
    (formats.decodeHex digits).mapError RequestError.invalidHex
  | file path => (files path).mapError (RequestError.unreadableInput path)

end Source

namespace CommandTable

/-- The table of a text. -/
def read (formats : Formats) (text : String) : Except String CommandTable :=
  (formats.readCommands text).map ofRows

/-- The table of a metadata file. -/
def load (formats : Formats) (files : FileReader) (path : String) :
    Except RequestError CommandTable := do
  let bytes ← (files path).mapError (RequestError.unreadableCommands path)
  match String.fromUTF8? ⟨bytes.toArray⟩ with
  | none => .error (.commandsNotText path)
  | some text => (read formats text).mapError (RequestError.invalidCommands path)

end CommandTable

/-- What a request names, loaded. -/
structure Loaded where
  bytes : List UInt8
  commands : CommandTable
  deriving DecidableEq

/-- An instruction of a listing and its bytes. -/
structure ReportLine where
  offset : Nat
  bytes : List UInt8
  instruction : String

/-- What a listing says of the expression as a whole. -/
inductive ExpressionReport
  | failed (message : String)
  | decompiled (text : String) (terminated : Bool) (peak : Nat)

/-- A listing of the instructions of an input, also of one that makes no
expression. -/
structure ListingReport where
  lines : List ReportLine
  expression : ExpressionReport

namespace ListingReport

/-- One instruction as a record. -/
def lineDocument (formats : Formats) (line : ReportLine) : JsonDocument :=
  .record [("bytes", .text (formats.encodeHex line.bytes)),
    ("instruction", .text line.instruction), ("offset", .number (UInt64.ofNat line.offset))]

/-- The expression as a record. -/
def expressionDocument : ExpressionReport -> JsonDocument
  | .failed message => .record [("error", .text message)]
  | .decompiled text terminated peak =>
    .record [("max_stack_depth", .number (UInt64.ofNat peak)),
      ("terminated", .boolean terminated), ("text", .text text)]

/-- The listing as a record, its members in the order of their names. -/
def document (formats : Formats) (report : ListingReport) : JsonDocument :=
  .record [("expression", expressionDocument report.expression),
    ("instructions", .list (report.lines.map (lineDocument formats)))]

end ListingReport

/-- What a request may be asked for. -/
inductive Operation
  | expression | listing | roundTrip
  deriving DecidableEq

namespace Request

/-- Load what a request names, the input first. -/
def load (formats : Formats) (files : FileReader) (request : Request) :
    Except RequestError Loaded := do
  let bytes ← request.source.load formats files
  let commands ←
    match request.commandsPath? with
    | none => .ok .empty
    | some path => CommandTable.load formats files path
  .ok ⟨bytes, commands⟩

/-- The default limits, with the request's wish for an end-marker. -/
def options (request : Request) : DecompileOptions :=
  { requireTerminator := request.requireTerminator }

/-- The execution of what was loaded. -/
def execution (request : Request) (loaded : Loaded) : Decompiler.Run :=
  Decompiler.run loaded.commands.arities request.options loaded.bytes

/-- The tree of what was loaded. -/
def decompiled (request : Request) (loaded : Loaded) : Except RequestError Decompiled :=
  (request.execution loaded).outcome.mapError RequestError.notDecompiled

/-- A tree is assembled again with its framing, under the default limits and
without a look at the metadata. -/
def assemblyOptions (decompiled : Decompiled) : AssemblyOptions :=
  { framing := decompiled.framing }

/-- The expression as infix text, with the names of the metadata. -/
def infixText (formats : Formats) (files : FileReader) (request : Request) :
    Except RequestError String := do
  let loaded ← request.load formats files
  let decompiled ← request.decompiled loaded
  .ok (decompiled.expr.text loaded.commands.naming)

/-- The line of an instruction, with its part of the buffer. -/
def reportLine (bytes : List UInt8) (entry : ListedInstruction) : ReportLine :=
  ⟨entry.offset, (bytes.drop entry.offset).take entry.length, entry.instruction.text⟩

/-- What is said of the expression in a listing. -/
def expressionReport (request : Request) (loaded : Loaded) : ExpressionReport :=
  match request.decompiled loaded with
  | .error error => .failed error.message
  | .ok decompiled =>
    .decompiled (decompiled.expr.text loaded.commands.naming)
      (decide (decompiled.framing = .terminated)) decompiled.peak

/-- The listing of the instructions.  Only bytes that are no instructions keep
it from being made. -/
def listing (formats : Formats) (files : FileReader) (request : Request) :
    Except RequestError ListingReport := do
  let loaded ← request.load formats files
  let entries ← (disassemble loaded.bytes).mapError RequestError.notDisassembled
  .ok ⟨entries.map (reportLine loaded.bytes), request.expressionReport loaded⟩

/-- The listing as indented JSON. -/
def listingText (formats : Formats) (files : FileReader) (request : Request) :
    Except RequestError String := do
  let report ← request.listing formats files
  (formats.writeJson (report.document formats)).mapError RequestError.unwritableListing

/-- The outcome of assembling the tree of the input again. -/
def roundTripText (formats : Formats) (files : FileReader) (request : Request) :
    Except RequestError String := do
  let loaded ← request.load formats files
  let decompiled ← request.decompiled loaded
  let assembled ← (decompiled.expr.assemble (assemblyOptions decompiled) none).mapError
    RequestError.notAssembled
  if assembled.bytes = loaded.bytes then
    .ok (s!"identical: {loaded.bytes.length} bytes, " ++ decompiled.framing.name ++
      s!", max stack depth {decompiled.peak}")
  else .error (.changed (formats.encodeHex loaded.bytes) (formats.encodeHex assembled.bytes))

/-- The answer to a request. -/
def answer (formats : Formats) (files : FileReader) (operation : Operation) (request : Request) :
    Except RequestError String :=
  match operation with
  | .expression => request.infixText formats files
  | .listing => request.listingText formats files
  | .roundTrip => request.roundTripText formats files

/-- The answer as it is given: a text, or an error in words. -/
def reply (formats : Formats) (files : FileReader) (operation : Operation) (request : Request) :
    Except String String :=
  (request.answer formats files operation).mapError RequestError.message

/-- The message that loading has ended. -/
def loadedMessage (loaded : Loaded) : LogMessage :=
  ⟨.debug, s!"Loaded {loaded.bytes.length} bytes and {loaded.commands.size} commands"⟩

/-- The messages of what is done with the loaded input.  A listing executes
the input only if it could be disassembled, and only a round trip assembles. -/
def workLog (operation : Operation) (request : Request) (loaded : Loaded) : List LogMessage :=
  let execution := request.execution loaded
  let executed := execution.log loaded.bytes.length
  match operation, execution.outcome with
  | .listing, _ =>
    match disassemble loaded.bytes with
    | .error _ => []
    | .ok _ => executed
  | .roundTrip, .ok decompiled =>
    let options := assemblyOptions decompiled
    executed ++ decompiled.expr.assemblyLog options (decompiled.expr.assemble options none)
  | _, _ => executed

/-- The messages of answering a request. -/
def log (formats : Formats) (files : FileReader) (operation : Operation) (request : Request) :
    List LogMessage :=
  match request.load formats files with
  | .error _ => []
  | .ok loaded => loadedMessage loaded :: workLog operation request loaded

/-- The files that answering a request may read. -/
def paths (request : Request) : List String :=
  let source :=
    match request.source with
    | .hex _ => []
    | .file path => [path]
  source ++ request.commandsPath?.toList

end Request
end Rpn
