import JsonUnpack.Command.Run

/-! The program itself: a run on the files and the streams of the machine. -/
namespace JsonUnpack.Command

private def reasonOf (error : IO.Error) : Reason :=
  match error with
  | .noFileOrDirectory .. => .notFound
  | .inappropriateType _ 21 _ => .isDirectory
  | .inappropriateType _ 20 _ => .notDirectory
  | error => .other (toString error)

private def machine : Host IO where
  read path := do
    match ← (IO.FS.Handle.mk path .read).toBaseIO with
    | .error error => return .error (.opening (reasonOf error))
    | .ok handle =>
      match ← handle.readBinToEnd.toBaseIO with
      | .error error => return .error (.reading (reasonOf error))
      | .ok bytes => return .ok bytes
  readInput := do
    let input ← IO.getStdin
    match ← input.readBinToEnd.toBaseIO with
    | .error error => return .error (reasonOf error)
    | .ok bytes => return .ok bytes
  write path text := do
    match ← (IO.FS.writeFile path text).toBaseIO with
    | .error error => return .error (reasonOf error)
    | .ok () => return .ok ()

/-- Runs a command line on the machine and answers its exit code. -/
def runOnMachine (line : List String) : IO UInt32 := do
  let report ← runLine machine line
  IO.print report.stdout
  IO.eprint report.stderr
  return report.exitCode.toUInt32

end JsonUnpack.Command

def main (line : List String) : IO UInt32 := JsonUnpack.Command.runOnMachine line
