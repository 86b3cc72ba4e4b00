import Shadeloom.CommandLine.Run
/-!
# The program

Reads the files that a command needs, prints its report and ends with its code.
-/
open Shadeloom.CommandLine

/-- The text of a refusal to read a file: what is wrong, and the number of that error. -/
def Shadeloom.refusal (error : IO.Error) : String :=
  let numbered (code : UInt32) (details : String) :=
    details ++ " (os error " ++ toString code.toNat ++ ")"
  match error with
  | .noFileOrDirectory _ code details => numbered code details
  | .permissionDenied _ code details => numbered code details
  | .inappropriateType _ code details => numbered code details
  | .invalidArgument _ code details => numbered code details
  | error => toString error

/-- The content of a file, or why it cannot be read. -/
def Shadeloom.readContent (path : String) : IO (Except String String) := do
  try
    return .ok (← IO.FS.readFile path)
  catch error =>
    return .error (Shadeloom.refusal error)

/-- Runs a command, reading files as they are needed. -/
partial def Shadeloom.runReading (arguments : List String) (known : Known) : IO Report := do
  match run arguments known with
  | .ok report => return report
  | .error need =>
    Shadeloom.runReading arguments (known.add need (← Shadeloom.readContent need.path))

def main (arguments : List String) : IO UInt32 := do
  let report ← Shadeloom.runReading arguments .nothing
  IO.print report.output
  match report.error with
  | some message => IO.eprintln ("Error: " ++ message)
  | none => pure ()
  return report.code.toUInt32
