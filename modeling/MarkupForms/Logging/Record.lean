import MarkupForms.Text.Visible

/-!
# Log records

A record has a level, the name of the part of the program that made it, and a message. It is written
as one line, as far as it is visible; further lines of a message are indented by four spaces.
-/

namespace MarkupForms.Logging

/-- How urgent a record is, most urgent first. -/
inductive Level where
  | error
  | warn
  | info
  | debug
  | trace
  deriving Repr, DecidableEq

namespace Level

/-- The levels, most urgent first. -/
def all : List Level := [.error, .warn, .info, .debug, .trace]

/-- The rank of a level: the less urgent, the higher. -/
def rank : Level → Nat
  | .error => 1
  | .warn => 2
  | .info => 3
  | .debug => 4
  | .trace => 5

/-- The name of a level in settings. -/
def name : Level → String
  | .error => "error"
  | .warn => "warn"
  | .info => "info"
  | .debug => "debug"
  | .trace => "trace"

/-- The name of a level in a record, as wide as the widest. -/
def label : Level → String
  | .error => "ERROR"
  | .warn => "WARN "
  | .info => "INFO "
  | .debug => "DEBUG"
  | .trace => "TRACE"

end Level

/-- A record: `target` names the part of the program that made it. -/
structure Record where
  level : Level
  target : String
  message : String
  deriving Repr, DecidableEq

/-- The text with four spaces behind each line break. -/
def indentLines : List Char → List Char
  | [] => []
  | c :: cs => if c = '\n' then "\n    ".toList ++ indentLines cs else c :: indentLines cs

/-- A record as it is written. -/
def Record.line (record : Record) : String :=
  Text.visible ("[" ++ record.level.label ++ " " ++ record.target ++ "] " ++
    String.ofList (indentLines record.message.toList) ++ "\n")

end MarkupForms.Logging
