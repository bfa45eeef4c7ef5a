import MarkupForms.Value.Kind

/-!
# Properties

A type declares its properties in order. A managed property keeps its value in the object's property
store and can be bound; a plain one is a field that the object itself reads and writes.
-/

namespace MarkupForms

/-- The descriptor of a managed property; `owner` names the type that declares it. -/
structure ManagedProperty where
  name : String
  owner : String
  kind : ValueKind
  deriving Repr, DecidableEq

/-- One property declared by a type. -/
inductive PropertyInfo where
  | managed (property : ManagedProperty)
  | plain (name : String) (kind : ValueKind)
  deriving Repr, DecidableEq

namespace PropertyInfo

/-- The name of a property. -/
def name : PropertyInfo → String
  | .managed property => property.name
  | .plain name _ => name

/-- The kind of a property's values. -/
def kind : PropertyInfo → ValueKind
  | .managed property => property.kind
  | .plain _ kind => kind

/-- Whether the property's value is kept in the property store. -/
def isManaged : PropertyInfo → Bool
  | .managed _ => true
  | .plain _ _ => false

/-- The descriptor of a managed property. -/
def managed? : PropertyInfo → Option ManagedProperty
  | .managed property => some property
  | .plain _ _ => none

/-- The kind of a plain property called `name`. -/
def plainKind? (name : String) : PropertyInfo → Option ValueKind
  | .managed _ => none
  | .plain declared kind => if declared = name then some kind else none

end PropertyInfo

/-- How a type takes the children written directly inside its element: not at all, appended in
order, or under a key. -/
inductive ContainerKind where
  | none
  | items
  | keyed
  deriving Repr, DecidableEq

end MarkupForms
