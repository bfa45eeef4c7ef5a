import MarkupForms.Binding.Mode
import MarkupForms.Types.Property
import MarkupForms.Value.Basic

/-!
# Property stores

The values of an object's managed properties, and at most one binding for each of them. Values and
bindings are independent: writing one leaves the other as it was.
-/

namespace MarkupForms

/-- A binding attached to a managed property. It does nothing until a context supplies a value for
`path`; `converter` is an object that may transform the value on its way. -/
structure Binding where
  path : String
  converter : Option ObjectId
  mode : BindingMode
  deriving Repr, DecidableEq

/-- A binding together with the property it is attached to. -/
structure BoundProperty where
  property : ManagedProperty
  binding : Binding
  deriving Repr, DecidableEq

/-- The managed values and bindings of one object, each in order of first insertion. -/
structure PropertyStore where
  values : OrderedMap Value
  bindings : OrderedMap BoundProperty

namespace PropertyStore

/-- The store without values and bindings. -/
def empty : PropertyStore := ⟨.empty, .empty⟩

instance : Inhabited PropertyStore := ⟨empty⟩

/-- The value stored under `name`. -/
def value? (store : PropertyStore) (name : String) : Option Value :=
  store.values.get? name

/-- The binding attached to the property called `name`. -/
def binding? (store : PropertyStore) (name : String) : Option Binding :=
  (store.bindings.get? name).map (·.binding)

/-- The store with `value` for `property`; the kind is not checked. -/
def setValue (store : PropertyStore) (property : ManagedProperty) (value : Value) : PropertyStore :=
  { store with values := store.values.insert property.name value }

/-- The store with `binding` attached to `property`, in place of an earlier one. -/
def setBinding (store : PropertyStore) (property : ManagedProperty) (binding : Binding) :
    PropertyStore :=
  { store with bindings := store.bindings.insert property.name ⟨property, binding⟩ }

theorem value?_setValue (store : PropertyStore) (property : ManagedProperty) (value : Value)
    (name : String) :
    (store.setValue property value).value? name =
      if property.name = name then some value else store.value? name :=
  OrderedMap.get?_insert _ _ _ _

@[simp] theorem value?_setBinding (store : PropertyStore) (property : ManagedProperty)
    (binding : Binding) (name : String) :
    (store.setBinding property binding).value? name = store.value? name := rfl

@[simp] theorem binding?_setValue (store : PropertyStore) (property : ManagedProperty)
    (value : Value) (name : String) :
    (store.setValue property value).binding? name = store.binding? name := rfl

theorem binding?_setBinding (store : PropertyStore) (property : ManagedProperty)
    (binding : Binding) (name : String) :
    (store.setBinding property binding).binding? name =
      if property.name = name then some binding else store.binding? name := by
  simp only [binding?, setBinding, OrderedMap.get?_insert]
  split <;> simp

end PropertyStore

end MarkupForms
