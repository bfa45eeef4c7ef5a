import MarkupForms.Markup.Declaration
import MarkupForms.Markup.Node
import MarkupForms.Text.Split

/-!
# Scopes of namespace prefixes

A start tag declares prefixes for itself and for everything inside its element. The scopes of the
open elements are kept innermost first, and a prefix stands for what the innermost scope that knows
it says; within one tag the first declaration counts. The prefixes `xml` and `xmlns` are fixed.
Without a declaration, no prefix at all stands for the empty namespace, and any other prefix is a
fault.
-/

namespace MarkupForms.Markup

/-- The prefixes that one tag declares, with their namespaces. The empty prefix is that of names
without a colon. -/
abbrev Scope := List (String × String)

/-- The prefix of a name, if there is one, and the rest: a name is cut at its first colon. -/
def cutName (written : String) : Option String × String :=
  match Text.splitAt? ':' written.toList with
  | some (before, after) => (some (String.ofList before), String.ofList after)
  | none => (none, written)

/-- The prefix that an attribute declares. -/
def declaredPrefix? (key : String) : Option String :=
  match cutName key with
  | (none, "xmlns") => some ""
  | (some "xmlns", name) => some name
  | _ => none

/-- The declarations among the attributes of a tag. -/
def scopeOf (attributes : List (String × String)) : Scope :=
  attributes.filterMap fun (key, value) => (declaredPrefix? key).map (·, value)

/-- The namespace that a prefix stands for. -/
def namespaceOf (scopes : List Scope) (name : String) : Except NodeFault String :=
  if name = "xml" then .ok xmlNamespace
  else if name = "xmlns" then .ok declarationNamespace
  else
    match scopes.flatten.find? (·.1 == name) with
    | some (_, uri) => .ok uri
    | none => if name = "" then .ok "" else .error (.undeclaredPrefix name)

/-- The name of an element. -/
def elementName (scopes : List Scope) (written : String) : Except NodeFault ExpandedName :=
  let (before, localName) := cutName written
  (namespaceOf scopes (before.getD "")).map (⟨written, localName, ·⟩)

/-- The name of an attribute. Declarations have a namespace of their own, and without a prefix there
is none, not even the one that elements without a prefix have. -/
def attributeName (scopes : List Scope) (written : String) : Except NodeFault ExpandedName :=
  match cutName written with
  | (none, "xmlns") => .ok ⟨written, "xmlns", declarationNamespace⟩
  | (none, localName) => .ok ⟨written, localName, ""⟩
  | (some before, localName) => (namespaceOf scopes before).map (⟨written, localName, ·⟩)

/-- The attributes of a tag with their names understood, up to the first fault. -/
def resolveAttributes (scopes : List Scope) :
    List (String × String) → Except NodeFault (List Attribute)
  | [] => .ok []
  | (key, value) :: rest =>
    match attributeName scopes key with
    | .error fault => .error fault
    | .ok name => (resolveAttributes scopes rest).map (⟨name, value⟩ :: ·)

/-- A tag with its names understood: first its own name, then those of its attributes. -/
def resolveTag (scopes : List Scope) (written : String) (attributes : List (String × String))
    (selfClosing : Bool) : Except NodeFault StartTag :=
  match elementName scopes written with
  | .error fault => .error fault
  | .ok name => (resolveAttributes scopes attributes).map (⟨name, ·, selfClosing⟩)

/-- Reads the tag with the given content, inside elements with the given scopes. Beside the outcome
it returns the scopes with the tag's own, which is missing only if the attributes cannot be read. -/
def openTag (scopes : List Scope) (content : List Char) (selfClosing : Bool) :
    Except NodeFault StartTag × List Scope :=
  match tagAttributes content with
  | .error fault => (.error (.badTag fault), scopes)
  | .ok attributes =>
    let inner := scopeOf attributes :: scopes
    (resolveTag inner (String.ofList (tagName content)) attributes selfClosing, inner)

end MarkupForms.Markup
