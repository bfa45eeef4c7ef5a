/-!
# Binding modes

The direction in which a binding moves values. `default` leaves the choice to the target property
and behaves as `oneWay`.
-/

namespace MarkupForms

/-- The direction in which a binding moves values. -/
inductive BindingMode where
  | default
  | oneWay
  | twoWay
  | oneWayToSource
  deriving Repr, DecidableEq

namespace BindingMode

/-- The modes in their usual order. -/
def all : List BindingMode := [.default, .oneWay, .twoWay, .oneWayToSource]

/-- The name of a mode in markup. -/
def name : BindingMode → String
  | .default => "Default"
  | .oneWay => "OneWay"
  | .twoWay => "TwoWay"
  | .oneWayToSource => "OneWayToSource"

/-- The mode of that name; names are case-sensitive. -/
def ofName? (s : String) : Option BindingMode :=
  all.find? (·.name == s)

/-- The complaint about a name that no mode has. -/
def unknownMessage (s : String) : String :=
  "unknown binding mode `" ++ s ++ "`"

/-- Whether source changes flow into the target property. -/
def readsSource : BindingMode → Bool
  | .oneWayToSource => false
  | _ => true

@[simp] theorem ofName?_name (mode : BindingMode) : ofName? mode.name = some mode := by
  cases mode <;> decide

end BindingMode

end MarkupForms
