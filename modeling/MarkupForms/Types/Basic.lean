import MarkupForms.Objects.State

/-!
# Types

A type describes a constructible or abstract kind of object. It is a declaration together with the
declarations it derives from, nearest first, so its ancestry is a list and every search along it is
a search in a list. Declarations are told apart by their identity, not by their names: two of them
may share module, namespace and name.
-/

namespace MarkupForms

/-- Tells type declarations apart: the unit that makes the declaration and its number in that
unit. -/
structure DeclId where
  unit : String
  index : Nat
  deriving Repr, DecidableEq

/-- What one type declares. -/
structure TypeDecl where
  id : DeclId
  moduleName : String
  namespaceName : String
  name : String
  /-- Whether the type takes part in the managed-property system. -/
  managed : Bool
  container : ContainerKind
  /-- The properties declared on this type only. -/
  properties : List PropertyInfo
  /-- The state of a new instance; abstract types have none. -/
  constructor : Option ObjectState

/-- A type: its own declaration and those of its bases, nearest first. -/
structure TypeInfo extends TypeDecl where
  bases : List TypeDecl

namespace TypeDecl

/-- The dotted name with the namespace, if there is one. -/
def fullName (decl : TypeDecl) : String :=
  if decl.namespaceName.isEmpty then decl.name else decl.namespaceName ++ "." ++ decl.name

end TypeDecl

namespace TypeInfo

/-- The type's own declaration followed by each of its bases. -/
def ancestry (type : TypeInfo) : List TypeDecl :=
  type.toTypeDecl :: type.bases

/-- The type that `decl` declares on top of `base`. -/
def derive (decl : TypeDecl) (base : Option TypeInfo) : TypeInfo :=
  { decl with bases := (base.map ancestry).getD [] }

/-- The full name with the module, as messages show a type. -/
def describe (type : TypeInfo) : String :=
  type.fullName ++ ", " ++ type.moduleName

/-- Whether `other` is the type itself or one of its bases. -/
def derivesFrom (type other : TypeInfo) : Bool :=
  type.ancestry.any (·.id == other.id)

/-- The properties along the ancestry, nearest type first. -/
def allProperties (type : TypeInfo) : List PropertyInfo :=
  type.ancestry.flatMap (·.properties)

/-- The first property called `name` along the ancestry. -/
def findProperty (type : TypeInfo) (name : String) : Option PropertyInfo :=
  type.allProperties.find? (·.name == name)

/-- The descriptor of the managed property called `name`, for a type that takes part in the
managed-property system. -/
def findManaged (type : TypeInfo) (name : String) : Option ManagedProperty :=
  if type.managed then (type.findProperty name).bind PropertyInfo.managed? else none

/-- The kind of the first plain property called `name` along the ancestry. -/
def findPlain (type : TypeInfo) (name : String) : Option ValueKind :=
  type.allProperties.findSome? (·.plainKind? name)

/-- The nearest way along the ancestry to take children. -/
def containerKind (type : TypeInfo) : ContainerKind :=
  ((type.ancestry.map (·.container)).find? (· != .none)).getD .none

end TypeInfo

end MarkupForms
