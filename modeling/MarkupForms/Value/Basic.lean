import MarkupForms.OrderedMap
import MarkupForms.Value.Kind

/-!
# Property values

A value is a scalar, a member of an enumeration, a reference to an object of the graph, or a list of
row records. A record is a binding context: a map from path to value. `ValueKind.admits` says which
values fit a kind as they are, `ValueKind.adapt` also widens integers to floats and turns text that
names a member into that member.
-/

namespace MarkupForms

/-- Names an object of the graph. Objects are told apart by it and by nothing else. -/
structure ObjectId where
  index : Nat
  deriving Repr, DecidableEq, Hashable

/-- A property value as it is stored. An enumeration value carries its member's name. -/
inductive Value where
  | text (s : String)
  | int (n : Int64)
  | float (x : Float)
  | bool (b : Bool)
  | enum (member : String)
  | object (id : ObjectId)
  | list (rows : List (OrderedMap Value))

instance : Inhabited Value := ⟨.text ""⟩

/-- A data source for bindings: a flat map from path to value. -/
abbrev BindingContext := OrderedMap Value

namespace Value

/-! ## Views -/

/-- The text of a text value. -/
def asText? : Value → Option String
  | .text s => some s
  | _ => none

/-- The number of an integer value. -/
def asInt? : Value → Option Int64
  | .int n => some n
  | _ => none

/-- The number of a float value. -/
def asFloat? : Value → Option Float
  | .float x => some x
  | _ => none

/-- The truth value of a boolean value. -/
def asBool? : Value → Option Bool
  | .bool b => some b
  | _ => none

/-- The member of an enumeration value. -/
def asEnum? : Value → Option String
  | .enum m => some m
  | _ => none

/-- The object that an object value refers to. -/
def asObject? : Value → Option ObjectId
  | .object id => some id
  | _ => none

/-- The records of a list value. -/
def asList? : Value → Option (List BindingContext)
  | .list rows => some rows
  | _ => none

end Value

/-! ## Kinds and values -/

/-- Whether a value can be stored under this kind as it is. -/
def ValueKind.admits : ValueKind → Value → Bool
  | .object, _ => true
  | .text, .text _ => true
  | .int, .int _ => true
  | .float, .float _ => true
  | .bool, .bool _ => true
  | .enum info, .enum m => (info.member? m).isSome
  | .list, .list _ => true
  | _, _ => false

/-- The value shaped for this kind, or `none` if it does not fit. -/
def ValueKind.adapt (kind : ValueKind) (value : Value) : Option Value :=
  match kind, value with
  | .float, .int n => some (.float n.toFloat)
  | .enum info, .text s => (info.member? s).map .enum
  | _, _ => if kind.admits value then some value else none

/-- A value that fits is adapted to itself. -/
theorem ValueKind.adapt_of_admits {kind : ValueKind} {value : Value}
    (h : kind.admits value = true) : kind.adapt value = some value := by
  cases kind <;> cases value <;> simp_all [ValueKind.adapt, ValueKind.admits]

/-- Whatever adaptation yields fits. -/
theorem ValueKind.admits_of_adapt {kind : ValueKind} {value adapted : Value}
    (h : kind.adapt value = some adapted) : kind.admits adapted = true := by
  unfold ValueKind.adapt at h
  split at h
  · simp only [Option.some.injEq] at h; subst h; rfl
  · next info s =>
    obtain ⟨m, hm, rfl⟩ := Option.map_eq_some_iff.1 h
    have := (EnumInfo.member?_eq_some_iff.1 hm).1
    subst this
    simp [ValueKind.admits, hm]
  · split at h
    · next ha => simp only [Option.some.injEq] at h; subst h; exact ha
    · simp at h

end MarkupForms
