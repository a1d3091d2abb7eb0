import Rpn.CommandLine.Invocation
import Rpn.CommandLine.StandardFormats

/-!
# The program

Reads the words of the command line, makes the log file, reads the files that
the action names, and prints what the action answers.  What is printed is
decided elsewhere; this module only moves it.
-/

namespace Rpn
namespace Program

/-- The reason of a failure with an error number.  Some file operations give
the number negated, as a word. -/
def numberedError (code : UInt32) (reason : String) : FileError :=
  let number := min code.toNat (-code).toNat
  (FileError.ofCode? number).getD ⟨reason, number⟩

/-- The reason of a failed file operation. -/
def fileError : IO.Error -> FileError
  | .noFileOrDirectory _ code reason | .inappropriateType _ code reason
  | .invalidArgument _ code reason | .permissionDenied _ code reason
  | .resourceExhausted _ code reason | .noSuchThing _ code reason
  | .otherError code reason => numberedError code reason
  | error => ⟨toString error, 0⟩

/-- Read the files of some paths, to be looked up later. -/
def snapshot (paths : List String) : IO FileReader := do
  let contents ← paths.mapM fun (path : String) => do
    match ← (IO.FS.readBinFile path).toBaseIO with
    | .ok bytes => pure (path, Except.ok bytes.toList)
    | .error error => pure (path, Except.error (fileError error))
  return fun path => (contents.lookup path).getD (.error .notFound)

/-- Write messages, a line each. -/
def writeLog (output : IO.FS.Stream) (messages : List LogMessage) : IO Unit :=
  messages.forM fun message =>
    output.putStrLn ("[" ++ message.level.name ++ "] " ++ message.text)

/-- The stream of the log: a new file, or the error stream. -/
def openLog (path? : Option String) : IO (Except InvocationError IO.FS.Stream) := do
  match path? with
  | none => return .ok (← IO.getStderr)
  | some path =>
    match ← (IO.FS.Handle.mk path .write).toBaseIO with
    | .ok handle => return .ok (IO.FS.Stream.ofHandle handle)
    | .error error => return .error (.unwritableLog path (fileError error))

/-- Carry out an invocation and give what it prints. -/
def carryOut (invocation : Invocation) : IO (Except InvocationError String) := do
  match invocation.checkVerbosity with
  | .error error => return .error error
  | .ok () =>
    match ← openLog invocation.logPath? with
    | .error error => return .error error
    | .ok stream =>
      let files ← snapshot invocation.action.paths
      writeLog stream (invocation.shownLog .standard files)
      return invocation.action.print .standard files

end Program
end Rpn

/-- Exit with 0 after an answer, with 1 after an error, and with 2 if the
command line cannot be read. -/
def main (words : List String) : IO UInt32 := do
  match Rpn.Invocation.read words with
  | .error error =>
    IO.eprintln ("error: " ++ error.message)
    return 2
  | .ok invocation =>
    match ← Rpn.Program.carryOut invocation with
    | .ok text =>
      IO.println text
      return 0
    | .error error =>
      IO.eprintln ("Error: " ++ Rpn.Quoted.text error.message)
      return 1
