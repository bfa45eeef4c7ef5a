/-!
# Files

What the program needs of a file system: reading the text at a path and writing one there. Both may
fail.
-/

namespace MarkupForms.CommandLine

/-- Why a file cannot be read or written. -/
inductive FileError where
  | missing
  | notDirectory
  | isDirectory
  | nameTooLong
  | other (text : String)
  deriving Repr, DecidableEq

/-- The text of an error. -/
def FileError.message : FileError → String
  | .missing => "No such file or directory (os error 2)"
  | .notDirectory => "Not a directory (os error 20)"
  | .isDirectory => "Is a directory (os error 21)"
  | .nameTooLong => "File name too long (os error 36)"
  | .other text => text

/-- How files are read and written. -/
structure FileAccess (m : Type → Type) where
  read : (path : String) → m (Except FileError String)
  write : (path content : String) → m (Except FileError Unit)

end MarkupForms.CommandLine
