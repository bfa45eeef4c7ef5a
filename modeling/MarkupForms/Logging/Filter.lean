import MarkupForms.Logging.Record
import MarkupForms.Text.Ascii
import MarkupForms.Text.Blank
import MarkupForms.Text.Pattern.Reading
import MarkupForms.Text.Split

/-!
# Which records are written

A filter is spelled as directives between commas. `level` alone holds for all targets,
`target=level` for targets that begin with the given text, and `target` alone lets everything of it
pass. The directive with the longest target decides. Behind a slash may follow a pattern that has to
occur in a message. Without any directive only errors pass.
-/

namespace MarkupForms.Logging

/-- The least urgent level that passes; with none, nothing does. -/
abbrev Threshold := Option Level

/-- The name of a threshold. -/
def Threshold.name : Threshold → String
  | none => "off"
  | some level => level.name

/-- The threshold of that name, in any case. -/
def Threshold.ofName? (s : String) : Option Threshold :=
  let lower := String.ofList (s.toList.map Text.lowerAscii)
  if lower = "off" then some none
  else (Level.all.find? (·.name == lower)).map some

/-- Whether a threshold lets a level pass. -/
def Threshold.admits : Threshold → Level → Bool
  | none, _ => false
  | some limit, level => level.rank ≤ limit.rank

/-- A threshold for the targets that begin with `target`, or for all. -/
structure Directive where
  target : Option String
  threshold : Threshold
  deriving Repr, DecidableEq

/-- What is wrong with a filter's text. -/
inductive FilterFault where
  | badSpec (text : String)
  | severalSlashes (text : String)
  | badPattern (text : String) (fault : Text.PatternFault)
  deriving Repr, DecidableEq

/-- The text of a fault. -/
def FilterFault.message : FilterFault → String
  | .badSpec text => "invalid logging spec '" ++ text ++ "'"
  | .severalSlashes text => "invalid logging spec '" ++ text ++ "' (too many '/'s)"
  | .badPattern text fault => "invalid regex filter - " ++ fault.message text.toList

/-- The threshold that lets everything pass. -/
def everything : Threshold := some .trace

/-- The directive that a non-empty text without blanks around it spells. -/
def readDirective (text : List Char) : Except FilterFault Directive :=
  match Text.splitAll '=' text with
  | [only] =>
    match Threshold.ofName? (String.ofList only) with
    | some threshold => .ok ⟨none, threshold⟩
    | none => .ok ⟨some (String.ofList only), everything⟩
  | [target, level] =>
    match Text.trim level with
    | [] => .ok ⟨some (String.ofList target), everything⟩
    | trimmed =>
      match Threshold.ofName? (String.ofList trimmed) with
      | some threshold => .ok ⟨some (String.ofList target), threshold⟩
      | none => .error (.badSpec (String.ofList trimmed))
  | _ => .error (.badSpec (String.ofList text))

/-- The directives with one more, in place of an earlier one for the same targets. -/
def setDirective (directive : Directive) : List Directive → List Directive
  | [] => [directive]
  | other :: rest =>
    if other.target = directive.target then directive :: rest
    else other :: setDirective directive rest

/-- The directives that the parts of a text spell, added to those there are, and the faults. -/
def readDirectives (found : List Directive) : List (List Char) → List Directive × List FilterFault
  | [] => (found, [])
  | part :: parts =>
    match Text.trim part with
    | [] => readDirectives found parts
    | trimmed =>
      match readDirective trimmed with
      | .ok directive => readDirectives (setDirective directive found) parts
      | .error fault =>
        let (directives, faults) := readDirectives found parts
        (directives, fault :: faults)

/-- Whether a directive speaks about a target. -/
def Directive.covers (directive : Directive) (target : String) : Bool :=
  match directive.target with
  | none => true
  | some start => (Text.strip? start.toList target.toList).isSome

/-- The length of the target that a directive names. -/
def Directive.weight (directive : Directive) : Nat :=
  match directive.target with
  | none => 0
  | some start => start.utf8ByteSize

/-- A filter: its directives and a pattern that has to occur in messages. -/
structure Filter where
  directives : List Directive
  contained : Option Text.Pattern
  deriving Repr

namespace Filter

/-- The filter that a text spells, and the faults in it. A pattern that cannot be read is left
out. -/
def read (text : String) : Filter × List FilterFault :=
  match Text.splitAll '/' text.toList with
  | [directives] =>
    let (found, faults) := readDirectives [] (Text.splitAll ',' directives)
    (⟨found, none⟩, faults)
  | [directives, contained] =>
    let (found, faults) := readDirectives [] (Text.splitAll ',' directives)
    match Text.Pattern.read contained with
    | .ok pattern => (⟨found, some pattern⟩, faults)
    | .error fault => (⟨found, none⟩, faults ++ [.badPattern (String.ofList contained) fault])
  | _ => (⟨[], none⟩, [.severalSlashes text])

/-- The directive that decides about a target: of those with the longest name the last. -/
def decisive? (target : String) : List Directive → Option Directive
  | [] => none
  | directive :: rest =>
    match decisive? target rest with
    | none => if directive.covers target then some directive else none
    | some later =>
      if directive.covers target && later.weight < directive.weight then some directive
      else some later

/-- Whether a record passes. -/
def passes (filter : Filter) (record : Record) : Bool :=
  let directives :=
    if filter.directives.isEmpty then [⟨none, some .error⟩] else filter.directives
  let admitted :=
    match decisive? record.target directives with
    | some directive => directive.threshold.admits record.level
    | none => false
  let contained :=
    match filter.contained with
    | some pattern => pattern.occursIn record.message.toList
    | none => true
  admitted && contained

end Filter

end MarkupForms.Logging
