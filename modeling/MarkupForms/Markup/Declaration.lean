import MarkupForms.Text.Blank
import MarkupForms.Text.Split

/-!
# Namespaces and their declarations

The framework's types live in three namespaces: its own, the one of markup metadata, and the empty
one. Any other namespace has to say where its types are: up to three segments between semicolons
name a namespace, a module, or a type with its namespace. Later segments win over earlier ones. The
class of a document is written in the same way.
-/

namespace MarkupForms.Markup

/-- The namespace of the framework's types. -/
def frameworkNamespace : String := "http://kiln.dev/forms"

/-- The namespace of markup metadata: keys, classes, ids. -/
def metadataNamespace : String := "http://schemas.microsoft.com/winfx/2006/xaml"

/-- The namespace of namespace declarations. -/
def declarationNamespace : String := "http://www.w3.org/2000/xmlns/"

/-- The namespace of the reserved prefix `xml`. -/
def xmlNamespace : String := "http://www.w3.org/XML/1998/namespace"

/-- Whether a namespace holds the framework's own types. -/
def isFramework (uri : String) : Bool :=
  uri == frameworkNamespace || uri == metadataNamespace || uri == ""

/-- What a declaration says; each part may be missing. -/
structure Declaration where
  namespaceName : Option String
  typeName : Option String
  moduleName : Option String
  deriving Repr, DecidableEq

/-- Why a text is no declaration. -/
inductive DeclarationFault where
  | tooManySegments
  | emptyNamespace
  | emptyModule
  | emptySegment
  /-- The declaration is well-formed but names no namespace where one is needed. -/
  | namesNoNamespace
  deriving Repr, DecidableEq

/-- The text of a fault. -/
def DeclarationFault.message : DeclarationFault → String
  | .tooManySegments => "at most three `;`-separated segments are allowed"
  | .emptyNamespace => "empty `clr-namespace:` segment"
  | .emptyModule => "empty `assembly=` segment"
  | .emptySegment => "empty segment"
  | .namesNoNamespace => "declaration names no namespace"

/-- The declaration `decl` with a dotted name: split at its last dot, unless that dot comes
first. -/
def Declaration.withDotted (decl : Declaration) (name : List Char) : Declaration :=
  match Text.splitAtLast? '.' name with
  | some (c :: before, after) =>
    { decl with
      namespaceName := some (String.ofList (c :: before))
      typeName := some (String.ofList after) }
  | _ => { decl with typeName := some (String.ofList name) }

/-- The declaration `decl` with what one segment says. -/
def Declaration.withSegment (decl : Declaration) (segment : List Char) :
    Except DeclarationFault Declaration :=
  let segment := Text.trim segment
  match Text.strip? "clr-namespace:".toList segment, Text.strip? "assembly=".toList segment with
  | some [], _ => .error .emptyNamespace
  | some name, _ => .ok { decl with namespaceName := some (String.ofList name) }
  | none, some [] => .error .emptyModule
  | none, some name => .ok { decl with moduleName := some (String.ofList name) }
  | none, none =>
    if segment.isEmpty then .error .emptySegment else .ok (decl.withDotted segment)

/-- The declaration `decl` with what the segments say, from left to right. -/
def Declaration.withSegments (decl : Declaration) : List (List Char) →
    Except DeclarationFault Declaration
  | [] => .ok decl
  | segment :: segments =>
    match decl.withSegment segment with
    | .ok next => next.withSegments segments
    | .error fault => .error fault

/-- The declaration that a text spells. -/
def Declaration.parse (text : String) : Except DeclarationFault Declaration :=
  let segments := Text.splitAll ';' text.toList
  if 3 < segments.length then .error .tooManySegments
  else Declaration.withSegments ⟨none, none, none⟩ segments

end MarkupForms.Markup
