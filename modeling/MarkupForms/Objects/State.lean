import MarkupForms.Binding.Store
import MarkupForms.Value.Print

/-!
# The state of an object

An object offers a set of capabilities, each of which it may lack: a property store, plain fields,
ordered items, keyed entries, stamped rows, a conversion of values. Which of them it has is fixed
when it is made; only their contents change.
-/

namespace MarkupForms

/-- Why a plain property could not be written. -/
inductive PlainError where
  | noPlainProperty (typeName property : String)
  | valueMismatch (typeName property : String) (expected : ValueKind)
  deriving Repr, DecidableEq

/-- The text of a refused write. -/
def PlainError.message : PlainError → String
  | .noPlainProperty typeName property =>
    "`" ++ typeName ++ "` has no plain property `" ++ property ++ "`"
  | .valueMismatch typeName property expected =>
    "`" ++ typeName ++ "." ++ property ++ "` expects " ++ expected.print

/-- A field that an object reads and writes under `name`. -/
structure PlainField where
  name : String
  kind : ValueKind
  deriving Repr, DecidableEq

/-- Whether a field takes a value. A field of kind `object` holds objects only. -/
def PlainField.accepts (field : PlainField) (value : Value) : Bool :=
  match field.kind with
  | .object => value.asObject?.isSome
  | kind => kind.admits value

/-- Which plain properties an object takes. -/
inductive PlainAccess where
  /-- The given fields; complaints name `owner`. -/
  | fields (owner : String) (fields : List PlainField)
  /-- Any value under any name. -/
  | anything
  deriving Repr, DecidableEq

/-- The implementation behind an object. A type may be implemented by another type's object, so this
is not determined by the object's type. -/
inductive Implementation where
  | label
  | entry
  | stackLayout
  | contentPage
  | listView
  | textCell
  | resourceDictionary
  /-- An implementation from outside the framework. -/
  | foreign (name : String)
  deriving Repr, DecidableEq

namespace Implementation

/-- The name of an implementation. -/
def name : Implementation → String
  | .label => "Label"
  | .entry => "Entry"
  | .stackLayout => "StackLayout"
  | .contentPage => "ContentPage"
  | .listView => "ListView"
  | .textCell => "TextCell"
  | .resourceDictionary => "ResourceDictionary"
  | .foreign name => name

/-- The framework's own implementations. -/
def framework : List Implementation :=
  [.label, .entry, .stackLayout, .contentPage, .listView, .textCell, .resourceDictionary]

/-- The implementation called `name`. -/
def ofName (name : String) : Implementation :=
  (framework.find? (·.name == name)).getD (.foreign name)

end Implementation

/-- The capabilities of an object and their contents. -/
structure ObjectState where
  implementation : Implementation
  /-- Managed values and bindings. -/
  store : Option PropertyStore
  plainAccess : PlainAccess
  /-- The plain values that can be read. -/
  plainValues : OrderedMap Value
  /-- Ordered children. -/
  items : Option (List ObjectId)
  /-- Children under keys. -/
  entries : Option (OrderedMap ObjectId)
  /-- The rows stamped at the last change of context, for objects that stamp rows. -/
  rows : Option (List ObjectId)
  /-- The conversion of an object that serves as a converter. -/
  converter : Option (Value → Value)

namespace ObjectState

/-- An object of type `typeName` without any capability. -/
def bare (implementation : Implementation) (typeName : String) : ObjectState where
  implementation := implementation
  store := none
  plainAccess := .fields typeName []
  plainValues := .empty
  items := none
  entries := none
  rows := none
  converter := none

/-- The plain value under `name`. -/
def plain? (state : ObjectState) (name : String) : Option Value :=
  state.plainValues.get? name

/-- The state with `value` in the plain property `name`. -/
def setPlain (state : ObjectState) (name : String) (value : Value) :
    Except PlainError ObjectState :=
  let written := { state with plainValues := state.plainValues.insert name value }
  match state.plainAccess with
  | .anything => .ok written
  | .fields owner fields =>
    match fields.find? (·.name == name) with
    | none => .error (.noPlainProperty owner name)
    | some field =>
      if field.accepts value then .ok written
      else .error (.valueMismatch owner field.name field.kind)

/-- The value of a property: the managed value if one is stored, otherwise the plain one. -/
def get? (state : ObjectState) (name : String) : Option Value :=
  match state.store.bind (·.value? name) with
  | some value => some value
  | none => state.plain? name

/-- The binding attached to the managed property `name`. -/
def binding? (state : ObjectState) (name : String) : Option Binding :=
  state.store.bind (·.binding? name)

/-- The objects among the managed values, in store order. -/
def objectValues (state : ObjectState) : List ObjectId :=
  match state.store with
  | some store => store.values.values.filterMap Value.asObject?
  | none => []

/-- The children that make up the visual tree: items, then the objects among the managed values. -/
def children (state : ObjectState) : List ObjectId :=
  state.items.getD [] ++ state.objectValues

/-- Everything one level below: the children, then the keyed entries. -/
def nested (state : ObjectState) : List ObjectId :=
  state.children ++ (state.entries.map (·.values)).getD []

end ObjectState

end MarkupForms
