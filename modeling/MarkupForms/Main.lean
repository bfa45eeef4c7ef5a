import MarkupForms.CommandLine.Program

/-!
# The command

Runs the program on the files of the disk.
-/

namespace MarkupForms.CommandLine

/-- What an error of the file system means. -/
def diskError (error : IO.Error) : FileError :=
  match error with
  | .noFileOrDirectory .. => .missing
  | .inappropriateType _ code _ => if code = 21 then .isDirectory else .notDirectory
  | .invalidArgument _ code details => if code = 36 then .nameTooLong else .other details
  | other => .other other.toString

/-- Access to the files of the disk. -/
def disk : FileAccess IO where
  read path := do
    match ← (IO.FS.readFile path).toBaseIO with
    | .ok text => return .ok text
    | .error error => return .error (diskError error)
  write path content := do
    match ← (IO.FS.writeFile path content).toBaseIO with
    | .ok () => return .ok ()
    | .error error => return .error (diskError error)

end MarkupForms.CommandLine

open MarkupForms.CommandLine MarkupForms.Logging

/-- Generates accessors for the markup files among the arguments. -/
def main (arguments : List String) : IO UInt32 := do
  let mut found : List (String × String) := []
  for name in filterVariables do
    if let some value ← IO.getEnv name then found := (name, value) :: found
  let report ← run disk (List.lookup · found) arguments
  (← IO.getStdout).putStr report.stdout
  (← IO.getStderr).putStr report.stderr
  return UInt32.ofNat report.code
