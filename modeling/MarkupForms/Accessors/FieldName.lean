import MarkupForms.Text.Ascii

/-!
# Field names for element ids

An id is a letter or an underscore followed by letters, digits and underscores, all of ASCII. Its
field name is the id in small letters with an underscore before each capital that follows a small
letter or a digit. A reserved word is marked: most of them may be used as raw names, a few take an
underscore behind them instead.
-/

namespace MarkupForms.Accessors

open Text

/-- A character that may start an id. -/
def startsId (c : Char) : Bool :=
  isAsciiUpper c || isAsciiLower c || c == '_'

/-- A character that may continue an id. -/
def continuesId (c : Char) : Bool :=
  startsId c || isAsciiDigit c

/-- Whether a text is an id that can name a field. -/
def isId : List Char → Bool
  | [] => false
  | c :: cs => startsId c && cs.all continuesId

/-- The text in small letters with an underscore before each capital that follows a small letter or
a digit; `afterLower` says whether one stands before the text. -/
def snakeCase (afterLower : Bool) : List Char → List Char
  | [] => []
  | c :: cs =>
    if isAsciiUpper c then
      let folded := lowerAscii c :: snakeCase false cs
      if afterLower then '_' :: folded else folded
    else c :: snakeCase (isAsciiLower c || isAsciiDigit c) cs

/-- Reserved words that cannot be raw names. -/
def unrawWords : List String := ["self", "super", "crate"]

/-- The other reserved words. -/
def reservedWords : List String := [
  "as", "break", "const", "continue", "else", "enum", "extern", "false", "fn", "for", "if", "impl",
  "in", "let", "loop", "match", "mod", "move", "mut", "pub", "ref", "return", "static", "struct",
  "trait", "true", "type", "unsafe", "use", "where", "while", "async", "await", "dyn", "gen"]

/-- A name that is usable even if it is a reserved word. -/
def unreserved (name : String) : String :=
  if name ∈ unrawWords then name ++ "_"
  else if name ∈ reservedWords then "r#" ++ name
  else name

/-- The field name of an id. -/
def fieldName? (id : String) : Option String :=
  if isId id.toList then some (unreserved (String.ofList (snakeCase false id.toList))) else none

end MarkupForms.Accessors
