import JsonUnpack.BufferSize
import JsonUnpack.Command.Arguments
import JsonUnpack.Program
import JsonUnpack.Settings.Reader

/-! A run from its command line to its report, on a system with files. All that is read is read
before anything is written, and the program is written in one piece. -/
namespace JsonUnpack.Command

/-- Why a file cannot be used. -/
inductive Reason
  | notFound
  | isDirectory
  | notDirectory
  | notText
  | other (message : String)
  deriving DecidableEq

def Reason.message : Reason → String
  | notFound => "No such file or directory (os error 2)"
  | isDirectory => "Is a directory (os error 21)"
  | notDirectory => "Not a directory (os error 20)"
  | notText => "stream did not contain valid UTF-8"
  | other message => message

/-- A file that cannot be opened is told from one that opens and cannot be read, such as a
directory. -/
inductive ReadFault
  | opening (reason : Reason)
  | reading (reason : Reason)
  deriving DecidableEq

def ReadFault.reason : ReadFault → Reason
  | opening reason => reason
  | reading reason => reason

/-- A system with files and a standard input. A file is written as a whole or not at all. -/
structure Host (m : Type → Type) where
  read : String → m (Except ReadFault ByteArray)
  readInput : m (Except Reason ByteArray)
  write : String → String → m (Except Reason Unit)

/-- What a run leaves behind besides files. -/
structure Report where
  exitCode : Nat
  stdout : String
  stderr : String
  deriving DecidableEq

/-- Why a run that was asked for properly fails. -/
inductive Failure
  | configUnreadable (path : String) (reason : Reason)
  | configInvalid (path : String) (message : String)
  | notOpened (path : String) (reason : Reason)
  | notRead (path : String) (reason : Reason)
  | inputNotRead (reason : Reason)
  | notJson (message : String)
  | notWritten (path : String) (reason : Reason)
  deriving DecidableEq

namespace Failure

/-- What the run was about to do. -/
def context : Failure → String
  | configUnreadable path _ => "Failed to read config " ++ path
  | configInvalid path _ => "Invalid config " ++ path
  | notOpened path _ => "Failed to open " ++ path
  | notRead path _ => "Failed to read " ++ path
  | inputNotRead _ => "Failed to read stdin"
  | notJson _ => "Failed to parse JSON"
  | notWritten path _ => "Failed to write " ++ path

/-- What came in its way. -/
def cause : Failure → String
  | configUnreadable _ reason => reason.message
  | configInvalid _ message => message
  | notOpened _ reason => reason.message
  | notRead _ reason => reason.message
  | inputNotRead reason => reason.message
  | notJson message => message
  | notWritten _ reason => reason.message

def report (failure : Failure) : Report :=
  ⟨1, "", "Error: " ++ failure.context ++ "\n\nCaused by:\n    " ++ failure.cause ++ "\n"⟩

end Failure

/-- The text that bytes hold. -/
def decode (bytes : ByteArray) : Except Reason String :=
  match String.fromUTF8? bytes with
  | some text => .ok text
  | none => .error .notText

/-- The text of a file or of standard input, once its bytes are there. -/
def decoded (failure : Reason → Failure) (bytes : ByteArray) : Except Failure String :=
  (decode bytes).mapError failure

/-- The settings that a configuration file chooses. -/
def choicesOf (path : String) (content : Except ReadFault ByteArray) : Except Failure Choices :=
  match content with
  | .error fault => .error (.configUnreadable path fault.reason)
  | .ok bytes =>
    match decoded (.configUnreadable path) bytes with
    | .error failure => .error failure
    | .ok text =>
      (Settings.readChoices text).mapError fun fault =>
        .configInvalid path (fault.message Settings.Cause.message text)

/-- The text of an input file. -/
def textOf (path : String) (content : Except ReadFault ByteArray) : Except Failure String :=
  match content with
  | .error (.opening reason) => .error (.notOpened path reason)
  | .error (.reading reason) => .error (.notRead path reason)
  | .ok bytes => decoded (.notRead path) bytes

/-- The text of standard input. -/
def textOfInput (content : Except Reason ByteArray) : Except Failure String :=
  match content with
  | .error reason => .error (.inputNotRead reason)
  | .ok bytes => decoded .inputNotRead bytes

/-- What is written for the document that a text holds. -/
def output (invocation : Invocation) (settings : Settings) (text : String) :
    Except Failure String :=
  match Json.read text with
  | .error fault => .error (.notJson (fault.message Json.Cause.message text))
  | .ok document =>
    let bufferSize := invocation.bufferSize.getD document.value.bufferSize
    .ok (program settings bufferSize document ++ "\n")

section

variable {m : Type → Type} [Monad m]

/-- The settings of a run: the command line goes before the configuration file, and that before
what holds otherwise. -/
def settingsFor (host : Host m) (invocation : Invocation) : ExceptT Failure m Settings := do
  let chosen ← match invocation.config with
    | none => pure Choices.none
    | some path => ExceptT.mk (choicesOf path <$> host.read path)
  return (Settings.standard.override chosen).override invocation.choices

/-- The text of the document of a run. -/
def textFor (host : Host m) (invocation : Invocation) : ExceptT Failure m String :=
  match invocation.input with
  | some path => ExceptT.mk (textOf path <$> host.read path)
  | none => ExceptT.mk (textOfInput <$> host.readInput)

/-- Puts the program where it is asked for. -/
def deliver (host : Host m) (invocation : Invocation) (text : String) :
    ExceptT Failure m Report :=
  match invocation.output with
  | none => pure ⟨0, text, ""⟩
  | some path => do
    ExceptT.mk (Except.mapError (.notWritten path) <$> host.write path text)
    return ⟨0, "", ""⟩

/-- The steps of a run, up to the first that fails. -/
def steps (host : Host m) (invocation : Invocation) : ExceptT Failure m Report := do
  let settings ← settingsFor host invocation
  let text ← textFor host invocation
  let program ← ExceptT.mk (pure (output invocation settings text))
  deliver host invocation program

/-- Does what is asked for, or reports what failed. -/
def run (host : Host m) (invocation : Invocation) : m Report := do
  match ← (steps host invocation).run with
  | .ok report => return report
  | .error failure => return failure.report

/-- How the command line is written. -/
def usage : String :=
  "Usage: json-unpack [FILE] [-b|--buffer-size EXPR] [-o|--output FILE] [--config FILE]\n"
    ++ "  [--max-inline-children N] [--max-named-array-elements N] [--nesting-hint-threshold N]\n"

/-- A whole run. A command line that is refused has an exit code of its own and touches nothing. -/
def runLine (host : Host m) (line : List String) : m Report :=
  match parse line with
  | .error problem => return ⟨2, "", "error: " ++ problem.message ++ "\n\n" ++ usage⟩
  | .ok .help => return ⟨0, usage, ""⟩
  | .ok (.run invocation) => run host invocation

end

end JsonUnpack.Command
