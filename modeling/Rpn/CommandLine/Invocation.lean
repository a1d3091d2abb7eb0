import Rpn.CommandLine.Arguments

/-!
# Carrying out a command line

A command line that could be read is carried out in three steps: the verbosity
is checked, the log file is made, and the action is done.  Each step is done
only if the ones before it succeeded.  Making the log file may empty a file
that is also an input.
-/

namespace Rpn

/-- Why a command line that could be read has no answer. -/
inductive InvocationError
  | tooVerbose
  | unwritableLog (path : String) (error : FileError)
  | notAnswered (reason : String)

namespace InvocationError

/-- The error in words. -/
def message : InvocationError -> String
  | tooVerbose => "Verbosity is at most 4 (-vvvv)"
  | unwritableLog path error => "Unable to create log file " ++ path ++ ". " ++ error.message
  | notAnswered reason => reason

end InvocationError

namespace Action

/-- The line that names the version. -/
def versionText : String := "ezdis version 0.1.0"

/-- A short account of the command line. -/
def helpText : String :=
  "Usage: ezdis [-v...] [-l PATH] decode|disasm|roundtrip [HEX] [--file PATH] " ++
    "[--commands PATH] [--require-terminator]\n       ezdis version"

/-- What an action prints. -/
def print (formats : Formats) (files : FileReader) : Action -> Except InvocationError String
  | answer operation request =>
    (request.reply formats files operation).mapError InvocationError.notAnswered
  | version => .ok versionText
  | help => .ok helpText

/-- The messages of an action. -/
def log (formats : Formats) (files : FileReader) : Action -> List LogMessage
  | answer operation request => request.log formats files operation
  | version | help => []

/-- The files that an action may read. -/
def paths : Action -> List String
  | answer _ request => request.paths
  | version | help => []

end Action

namespace Invocation

/-- The greatest verbosity that has a meaning. -/
def maxVerbosity : Nat := 4

/-- Whether a message is detailed no more than the verbosity asks for. -/
def shows (verbosity : Nat) (message : LogMessage) : Bool :=
  match message.level with
  | .debug => decide (3 ≤ verbosity)
  | .trace => decide (4 ≤ verbosity)

/-- Refuse a verbosity without a meaning. -/
def checkVerbosity (invocation : Invocation) : Except InvocationError Unit :=
  if maxVerbosity < invocation.verbosity then .error .tooVerbose else .ok ()

/-- The messages that are logged. -/
def shownLog (formats : Formats) (files : FileReader) (invocation : Invocation) :
    List LogMessage :=
  (invocation.action.log formats files).filter (shows invocation.verbosity)

/-- What an invocation leaves behind: the line it prints or its error, the
files, and the messages in the log file if one was made. -/
structure Outcome where
  printed : Except InvocationError String
  tree : FileTree
  logged? : Option (List LogMessage)

/-- Carry out an invocation on a file tree. -/
def carryOut (formats : Formats) (tree : FileTree) (invocation : Invocation) : Outcome :=
  match invocation.checkVerbosity with
  | .error error => ⟨.error error, tree, none⟩
  | .ok () =>
    match invocation.logPath? with
    | none => ⟨invocation.action.print formats tree.read, tree, none⟩
    | some path =>
      match tree.create path with
      | .error error => ⟨.error (.unwritableLog path error), tree, none⟩
      | .ok tree =>
        ⟨invocation.action.print formats tree.read, tree,
          some (invocation.shownLog formats tree.read)⟩

end Invocation
end Rpn
