import MarkupForms.Text.Blank
import MarkupForms.Text.Split

/-!
# Tasks

A task reads one markup file and writes one source file. Its argument is `FILE` or `FILE,OUTPUT`,
with blanks around either part left aside. Without an output, the source goes into the working
directory, under the name of the input file with `.g.rs` behind it.
-/

namespace MarkupForms.CommandLine

/-- One file to read and one to write. -/
structure Task where
  input : String
  output : String
  deriving Repr, DecidableEq

/-- The parts of a path, without empty ones and without those that stand for the same directory. -/
def pathParts (path : List Char) : List (List Char) :=
  (Text.splitAll '/' path).filter fun part => !part.isEmpty && part != ['.']

/-- The name at the end of a path, if it ends in one. -/
def fileName? (path : List Char) : Option (List Char) :=
  match (pathParts path).getLast? with
  | some name => if name = ['.', '.'] then none else some name
  | none => none

/-- The task for an input without an output. -/
def Task.ofInput (input : List Char) : Task :=
  let name := (fileName? input).getD "markup".toList
  ⟨String.ofList input, String.ofList (name ++ ".g.rs".toList)⟩

/-- The task that an argument spells. -/
def Task.parse (arg : String) : Task :=
  match Text.splitAt? ',' arg.toList with
  | none => .ofInput (Text.trim arg.toList)
  | some (input, output) =>
    match Text.trim output with
    | [] => .ofInput (Text.trim input)
    | trimmed => ⟨String.ofList (Text.trim input), String.ofList trimmed⟩

end MarkupForms.CommandLine
