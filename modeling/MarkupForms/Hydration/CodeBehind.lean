import MarkupForms.Hydration.Fault
import MarkupForms.Types.Catalog

/-!
# Finding the markup of a type

The module of a type may carry the type's markup: the first resource in which the type is declared
as the class of the document. The test is for the text of the class attribute, in either kind of
quotes.
-/

namespace MarkupForms

open Hydration

/-- What deserves attention when a type's markup is looked for. -/
inductive Hydration.CodeBehindWarning where
  /-- Several resources declare the class; the first one is taken. -/
  | severalResources (className chosen : String) (others : List String)
  deriving Repr, DecidableEq

/-- The text of a warning. -/
def Hydration.CodeBehindWarning.message : CodeBehindWarning → String
  | .severalResources className chosen others =>
    let listed := ", ".intercalate (others.map fun name => "`" ++ name ++ "`")
    "x:Class `" ++ className ++ "` is declared by `" ++ chosen ++ "` and also by " ++ listed ++
      "; using `" ++ chosen ++ "`"

/-- Whether a resource declares a class. -/
def Resource.declaresClass (resource : Resource) (className : String) : Bool :=
  let text := resource.text.toList
  Text.occurs ("x:Class=\"" ++ className ++ "\"").toList text ||
    Text.occurs ("x:Class='" ++ className ++ "'").toList text

/-- The markup of a type, and the warnings. -/
def Catalog.markupOf (catalog : Catalog) (type : TypeInfo) :
    Except AbsenceFault String × List CodeBehindWarning :=
  match catalog.module? type.moduleName with
  | none => (.error (.moduleNotLoaded type.moduleName), [])
  | some m =>
    let className := type.fullName
    match m.resources.filter fun resource => resource.declaresClass className with
    | [] => (.error (.noMarkup m.name className), [])
    | [only] => (.ok only.text, [])
    | first :: others =>
      (.ok first.text, [.severalResources className first.name (others.map (·.name))])

end MarkupForms
