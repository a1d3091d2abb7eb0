import Rpn.CommandLine.Request

/-!
# Arguments

The words of a command line, read from left to right.  Options for logging
stand before the name of the operation, options for the input after it.  An
option that takes a value takes it from the same word or from the next one,
which then must not look like an option itself.  After a bare `--` every word
is an input.

The value-taking options and `--require-terminator` may be given once.  An
input is given exactly once, as text or as a file.

Reading is a machine that takes one word at a time; what it has reached says
how the next word is understood.
-/

namespace Rpn

/-- What a command line asks for. -/
inductive Action
  | answer (operation : Operation) (request : Request)
  | version
  | help

/-- A command line, read. -/
structure Invocation where
  verbosity : Nat
  logPath? : Option String
  action : Action

/-- Why a command line cannot be read. -/
inductive UsageError
  | missingOperation
  | unknownOperation (word : String)
  | unknownOption (word : String)
  | missingValue (option : String)
  | unexpectedValue (option : String)
  | repeated (option : String)
  | unexpectedWord (word : String)
  | missingInput
  | conflictingInput

namespace UsageError

/-- The error in words. -/
def message : UsageError -> String
  | missingOperation => "an operation is required: decode, disasm, roundtrip or version"
  | unknownOperation word => "unrecognized operation '" ++ word ++ "'"
  | unknownOption word => "unexpected option '" ++ word ++ "'"
  | missingValue option => "a value is required for '" ++ option ++ "'"
  | unexpectedValue option => "'" ++ option ++ "' takes no value"
  | repeated option => "'" ++ option ++ "' cannot be used more than once"
  | unexpectedWord word => "unexpected argument '" ++ word ++ "'"
  | missingInput => "hex digits or '--file' are required"
  | conflictingInput => "hex digits cannot be used with '--file'"

end UsageError

/-- A word of a command line by its form. -/
inductive ArgumentWord
  | plain (text : String)
  /-- The bare `--`. -/
  | endOfOptions
  | long (name : String) (value? : Option String)
  /-- Letters behind a single dash. -/
  | short (letters : List Char)

namespace ArgumentWord

/-- Split a long option at its first equals sign. -/
def ofLong (body : List Char) : ArgumentWord :=
  let name := body.takeWhile fun char => char != '='
  match body.drop name.length with
  | [] => .long (String.ofList name) none
  | _ :: value => .long (String.ofList name) (some (String.ofList value))

/-- The form of a word.  A single dash is a plain word. -/
def ofString (word : String) : ArgumentWord :=
  match word.toList with
  | ['-', '-'] => .endOfOptions
  | '-' :: '-' :: body => ofLong body
  | '-' :: letter :: letters => .short (letter :: letters)
  | _ => .plain word

end ArgumentWord

/-- Options before the operation. -/
structure LogOptions where
  verbosity : Nat := 0
  path? : Option String := none

namespace LogOptions

/-- Set the path of the log, once and to some text. -/
def setPath (options : LogOptions) (path : String) : Except UsageError LogOptions :=
  if path.isEmpty then .error (.missingValue "--log-file")
  else
    match options.path? with
    | none => .ok { options with path? := some path }
    | some _ => .error (.repeated "--log-file")

/-- Count one more wish for detail. -/
def raise (options : LogOptions) : LogOptions :=
  { options with verbosity := options.verbosity + 1 }

end LogOptions

/-- The options of an input that take a path. -/
inductive PathOption
  | file | commands
  deriving DecidableEq

namespace PathOption

/-- The name behind the dashes. -/
def name : PathOption -> String
  | file => "file"
  | commands => "commands"

/-- The option of a name. -/
def ofName? (name : String) : Option PathOption :=
  [file, commands].find? fun option => option.name == name

end PathOption

/-- Options and words after the operation. -/
structure InputOptions where
  hex? : Option String := none
  file? : Option String := none
  commands? : Option String := none
  requireTerminator : Bool := false

namespace InputOptions

/-- Set the hexadecimal text, once. -/
def setHex (options : InputOptions) (text : String) : Except UsageError InputOptions :=
  match options.hex? with
  | none => .ok { options with hex? := some text }
  | some _ => .error (.unexpectedWord text)

/-- The path given for an option, if there is one. -/
def path? (options : InputOptions) : PathOption -> Option String
  | .file => options.file?
  | .commands => options.commands?

/-- Set a path, once and to some text. -/
def setPath (options : InputOptions) (option : PathOption) (path : String) :
    Except UsageError InputOptions :=
  if path.isEmpty then .error (.missingValue ("--" ++ option.name))
  else if (options.path? option).isSome then .error (.repeated ("--" ++ option.name))
  else
    match option with
    | .file => .ok { options with file? := some path }
    | .commands => .ok { options with commands? := some path }

/-- Ask for an end-marker, once. -/
def setRequireTerminator (options : InputOptions) : Except UsageError InputOptions :=
  if options.requireTerminator then .error (.repeated "--require-terminator")
  else .ok { options with requireTerminator := true }

/-- The request that the options make. -/
def request (options : InputOptions) : Except UsageError Request :=
  match options.hex?, options.file? with
  | some _, some _ => .error .conflictingInput
  | none, none => .error .missingInput
  | some text, none => .ok ⟨.hex text, options.commands?, options.requireTerminator⟩
  | none, some path => .ok ⟨.file path, options.commands?, options.requireTerminator⟩

end InputOptions

/-- The plain word that says what is to be done. -/
inductive Verb
  | answer (operation : Operation)
  | version
  | help

namespace Verb

/-- The verb of a word. -/
def ofString? : String -> Option Verb
  | "decode" => some (.answer .expression)
  | "disasm" => some (.answer .listing)
  | "roundtrip" => some (.answer .roundTrip)
  | "version" => some .version
  | "help" => some .help
  | _ => none

end Verb

/-- How far the words of a command line have been read. -/
inductive ReadState
  /-- Before the operation. -/
  | start (log : LogOptions)
  /-- The next word is the path of the log. -/
  | logPath (log : LogOptions)
  /-- After the operation. -/
  | input (log : LogOptions) (operation : Operation) (options : InputOptions)
  /-- The next word is the path of an option. -/
  | inputPath (log : LogOptions) (operation : Operation) (options : InputOptions)
    (option : PathOption)
  /-- After the end of the options, when every word is an input. -/
  | inputOnly (log : LogOptions) (operation : Operation) (options : InputOptions)
  /-- After `version`, perhaps with the options ended. -/
  | version (log : LogOptions) (ended : Bool)
  /-- After `help`, perhaps with the verb that help is asked on. -/
  | topic (chosen : Bool)
  /-- Help was asked for by an option, and no later word matters. -/
  | help

namespace ReadState

/-- Read the letters of a word of short options.  The letter `l` takes the
rest of the word as its value, less an equals sign in front, or else the next
word. -/
def readLetters (word : String) (log : LogOptions) : List Char -> Except UsageError ReadState
  | [] => .ok (start log)
  | 'v' :: letters => readLetters word log.raise letters
  | ['l'] => .ok (logPath log)
  | 'l' :: '=' :: path => (log.setPath (String.ofList path)).map start
  | 'l' :: path => (log.setPath (String.ofList path)).map start
  | 'h' :: _ => .ok help
  | _ :: _ => .error (.unknownOption word)

/-- Read the name of an operation. -/
def readVerb (log : LogOptions) (name : String) : Except UsageError ReadState :=
  match Verb.ofString? name with
  | some (.answer operation) => .ok (input log operation {})
  | some .version => .ok (version log false)
  | some .help => .ok (topic false)
  | none => .error (.unknownOperation name)

/-- Read a word after `help`.  It is taken as it stands, even one that looks
like an option, and must be the only one. -/
def readTopic (chosen : Bool) (word : String) : Except UsageError ReadState :=
  match Verb.ofString? word, chosen with
  | some _, false => .ok (topic true)
  | _, _ => .error (.unknownOperation word)

/-- Read a word before the operation. -/
def readStart (log : LogOptions) (word : String) : Except UsageError ReadState :=
  match ArgumentWord.ofString word with
  | .plain name => readVerb log name
  | .endOfOptions => .error .missingOperation
  | .short letters => readLetters word log letters
  | .long "verbose" none => .ok (start log.raise)
  | .long "verbose" (some _) => .error (.unexpectedValue "--verbose")
  | .long "log-file" none => .ok (logPath log)
  | .long "log-file" (some path) => (log.setPath path).map start
  | .long "help" none => .ok help
  | .long _ _ => .error (.unknownOption word)

/-- Read a word after the operation. -/
def readInput (log : LogOptions) (operation : Operation) (options : InputOptions)
    (word : String) : Except UsageError ReadState :=
  match ArgumentWord.ofString word with
  | .plain text => (options.setHex text).map (input log operation)
  | .endOfOptions => .ok (inputOnly log operation options)
  | .short ('h' :: _) => .ok help
  | .short _ => .error (.unknownOption word)
  | .long "require-terminator" none => options.setRequireTerminator.map (input log operation)
  | .long "require-terminator" (some _) => .error (.unexpectedValue "--require-terminator")
  | .long "help" none => .ok help
  | .long name value? =>
    match PathOption.ofName? name, value? with
    | none, _ => .error (.unknownOption word)
    | some option, none => .ok (inputPath log operation options option)
    | some option, some path => (options.setPath option path).map (input log operation)

/-- Read a word after `version`. -/
def readVersion (log : LogOptions) (ended : Bool) (word : String) : Except UsageError ReadState :=
  match ArgumentWord.ofString word, ended with
  | .endOfOptions, false => .ok (version log true)
  | .short ('h' :: _), false => .ok help
  | .long "help" none, false => .ok help
  | _, _ => .error (.unexpectedWord word)

/-- Read one word. -/
def step (state : ReadState) (word : String) : Except UsageError ReadState :=
  match state with
  | start log => readStart log word
  | logPath log =>
    match ArgumentWord.ofString word with
    | .plain path => (log.setPath path).map start
    | _ => .error (.missingValue "--log-file")
  | input log operation options => readInput log operation options word
  | inputPath log operation options option =>
    match ArgumentWord.ofString word with
    | .plain path => (options.setPath option path).map (input log operation)
    | _ => .error (.missingValue ("--" ++ option.name))
  | inputOnly log operation options => (options.setHex word).map (inputOnly log operation)
  | version log ended => readVersion log ended word
  | topic chosen => readTopic chosen word
  | help => .ok help

/-- The invocation that all the words make. -/
def finish : ReadState -> Except UsageError Invocation
  | start _ => .error .missingOperation
  | logPath _ => .error (.missingValue "--log-file")
  | input log operation options | inputOnly log operation options =>
    options.request.map fun request =>
      ⟨log.verbosity, log.path?, .answer operation request⟩
  | inputPath _ _ _ option => .error (.missingValue ("--" ++ option.name))
  | version log _ => .ok ⟨log.verbosity, log.path?, .version⟩
  | topic _ | help => .ok ⟨0, none, .help⟩

end ReadState

namespace Invocation

/-- Read the words of a command line. -/
def read (words : List String) : Except UsageError Invocation := do
  let state ← words.foldlM ReadState.step (.start {})
  state.finish

end Invocation
end Rpn
