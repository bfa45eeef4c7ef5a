import MarkupForms.Expression.Basic
import MarkupForms.Hydration.Coercion
import MarkupForms.Markup.Cursor
import MarkupForms.Objects.Search

/-!
# Why markup is refused

A fault names its cause; `message` words it. Structural faults, those of the document's shape, are
shown with their position when they have one.

Positions can be missing: then the program breaks off where it asks for one. That ends a reading
like an error, so it is one of them here, but nothing is handed back, and whoever has started the
reading comes to nothing as well.
-/

namespace MarkupForms.Hydration

open Markup

/-! ## Types -/

/-- Why a name leads to no type, or a type to no object. -/
inductive ResolutionFault where
  | noFrameworkType
  | noModuleNamed
  | moduleNotLoaded (moduleName : String)
  | noTypeIn (moduleName : String)
  | notConstructible
  deriving Repr, DecidableEq

/-- The text of a resolution fault. -/
def ResolutionFault.message : ResolutionFault → String
  | .noFrameworkType => "no such framework type"
  | .noModuleNamed => "declaration names no module and no local module is set"
  | .moduleNotLoaded moduleName => "module `" ++ moduleName ++ "` is not loaded"
  | .noTypeIn moduleName => "no such type in module `" ++ moduleName ++ "`"
  | .notConstructible => "type has no default constructor"

/-! ## Assignment and insertion -/

/-- Why a value cannot be put into a property. -/
inductive AssignmentFault where
  | coercion (fault : CoercionFault)
  | resourcesNotKeyed (typeName : String)
  | noEntriesToShare (typeName : String)
  | noStore (typeName property : String)
  deriving Repr, DecidableEq

/-- The text of an assignment fault. -/
def AssignmentFault.message : AssignmentFault → String
  | .coercion fault => fault.message
  | .resourcesNotKeyed typeName =>
    "`" ++ typeName ++ ".Resources` must be a keyed container such as `ResourceDictionary`"
  | .noEntriesToShare typeName =>
    "`" ++ typeName ++ "` is not a keyed container and cannot supply resources"
  | .noStore typeName property =>
    "`" ++ typeName ++ "` declares managed `" ++ property ++ "` but has no property store"

/-- Why a child cannot be put into its parent. -/
inductive InsertionFault where
  | noItems (typeName : String)
  | noKey (typeName childTypeName : String)
  | noEntries (typeName : String)
  | noContainer (typeName childTypeName : String)
  deriving Repr, DecidableEq

/-- The text of an insertion fault. -/
def InsertionFault.message : InsertionFault → String
  | .noItems typeName => "`" ++ typeName ++ "` is tagged as a container but exposes no items"
  | .noKey typeName childTypeName =>
    "`" ++ typeName ++ "` entry of type `" ++ childTypeName ++ "` has no x:Key"
  | .noEntries typeName => "`" ++ typeName ++ "` is tagged as keyed but exposes no entries"
  | .noContainer typeName childTypeName =>
    "`" ++ typeName ++ "` is not a container; <" ++ childTypeName ++
      "> must be wrapped in a property element"

/-! ## The shape of a document -/

/-- Why a node cannot stand where it stands. -/
inductive ShapeFault where
  | endBeforeRoot (written : String)
  | noRoot
  | contentBehindRoot
  | endInside (element : String)
  | foreignProperty (property element : String)
  | emptyProperty (property : String)
  | repeatedValue (property : String)
  | nestedProperty (inner outer : String)
  deriving Repr, DecidableEq

/-- The text of a shape fault. -/
def ShapeFault.message : ShapeFault → String
  | .endBeforeRoot written => "unexpected `</" ++ written ++ ">` before the root element"
  | .noRoot => "document has no root element"
  | .contentBehindRoot => "content after the root element"
  | .endInside element => "unexpected end of document inside <" ++ element ++ ">"
  | .foreignProperty property element =>
    "property element <" ++ property ++ "> does not belong to <" ++ element ++ ">"
  | .emptyProperty property => "property element <" ++ property ++ "> is empty"
  | .repeatedValue property =>
    "property element <" ++ property ++ "> holds more than one value"
  | .nestedProperty inner outer =>
    "<" ++ inner ++ "> cannot appear directly inside property element <" ++ outer ++ ">"

/-- The cause of a structural fault. -/
inductive StructuralFault where
  | node (fault : NodeFault)
  | shape (fault : ShapeFault)
  | assignment (fault : AssignmentFault)
  | insertion (fault : InsertionFault)
  deriving Repr, DecidableEq

/-- The text of a structural fault, without its position. -/
def StructuralFault.message : StructuralFault → String
  | .node fault => fault.message
  | .shape fault => fault.message
  | .assignment fault => fault.message
  | .insertion fault => fault.message

/-! ## What cannot be found -/

/-- Why a document or an object was not found. -/
inductive AbsenceFault where
  | moduleNotLoaded (moduleName : String)
  | noMarkup (moduleName className : String)
  | object (fault : SearchError)
  deriving Repr, DecidableEq

/-- The text of an absence. -/
def AbsenceFault.message : AbsenceFault → String
  | .moduleNotLoaded moduleName => "module `" ++ moduleName ++ "` is not loaded"
  | .noMarkup moduleName className =>
    "no markup in module `" ++ moduleName ++ "` declares x:Class `" ++ className ++ "`"
  | .object fault => fault.message

/-! ## All of them -/

/-- Why markup is refused, or that reading it has broken off. -/
inductive MarkupError where
  | resolution (uri name : String) (fault : ResolutionFault)
  | declaration (text : String) (fault : DeclarationFault)
  | expression (text : String) (fault : Expression.Fault)
  | structural (fault : StructuralFault) (position : Option Position)
  | propertyNotFound (typeName property : String)
  | notBindable (typeName property : String)
  | notFound (fault : AbsenceFault)
  | plain (error : PlainError)
  | aborted
  deriving Repr, DecidableEq

/-- The error at `position`, if it is a structural fault. The position is asked for whatever the
error is, so without one the reading breaks off. -/
def MarkupError.at (position : Option Position) (error : MarkupError) : MarkupError :=
  match position with
  | none => .aborted
  | some position =>
    match error with
    | .structural fault _ => .structural fault (some position)
    | error => error

/-- A structural fault at `position`. -/
def StructuralFault.at (position : Option Position) (fault : StructuralFault) : MarkupError :=
  (MarkupError.structural fault none).at position

/-- The text of an error. There is none if the reading has broken off. -/
def MarkupError.message : MarkupError → String
  | .resolution uri name fault =>
    "cannot resolve `" ++ name ++ "` in `" ++ uri ++ "`: " ++ fault.message
  | .declaration text fault => "malformed `" ++ text ++ "`: " ++ fault.message
  | .expression text fault => "malformed `" ++ text ++ "`: " ++ fault.message
  | .structural fault position =>
    let shown :=
      match position with
      | some position => " (at " ++ position.print ++ ")"
      | none => ""
    "markup structure error: " ++ fault.message ++ shown
  | .propertyNotFound typeName property =>
    "`" ++ typeName ++ "` has no property `" ++ property ++ "`"
  | .notBindable typeName property =>
    "cannot bind `" ++ typeName ++ "." ++ property ++ "`: not a managed property"
  | .notFound fault => "not found: " ++ fault.message
  | .plain error => error.message
  | .aborted => ""

end MarkupForms.Hydration
