import MarkupForms.Markup.Declaration
import MarkupForms.Markup.Node
import MarkupForms.Text.Ascii

/-!
# Paths to element types

A framework element's type has a fixed path. The namespace of any other element becomes a path of
its dotted segments in small letters: relative to the crate, if the namespace is the one of the
document's class or lies below it, otherwise absolute.
-/

namespace MarkupForms.Accessors

open Markup

/-- The non-empty segments of a dotted name as the front part of a path. -/
def pathSegments (name : List Char) : String :=
  let segments := (Text.splitAll '.' name).filter fun segment => !segment.isEmpty
  String.join (segments.map fun segment => String.ofList (segment.map Text.lowerAscii) ++ "::")

/-- What is left of a namespace below the one of the class. -/
def below? (classNamespace namespaceName : String) : Option (List Char) :=
  if namespaceName = classNamespace then some []
  else Text.strip? (classNamespace.toList ++ ['.']) namespaceName.toList

/-- The path to the type of an element in a document whose class has the given namespace. -/
def typePath (classNamespace : Option String) (name : ExpandedName) :
    Except DeclarationFault String :=
  if isFramework name.uri then .ok ("::kiln_model::forms::" ++ name.localName)
  else
    match Declaration.parse name.uri with
    | .error fault => .error fault
    | .ok decl =>
      let namespaceName := decl.namespaceName.getD ""
      match classNamespace.bind (below? · namespaceName) with
      | some rest => .ok ("crate::" ++ pathSegments rest ++ name.localName)
      | none => .ok ("::" ++ pathSegments namespaceName.toList ++ name.localName)

end MarkupForms.Accessors
