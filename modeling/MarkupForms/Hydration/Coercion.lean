import MarkupForms.Decimal.Integer
import MarkupForms.Decimal.Reading
import MarkupForms.Text.Blank
import MarkupForms.Value.Basic

/-!
# From markup to values

What markup supplies for a property is a text or a nested object. A text is read as the property's
kind asks, with the blanks around it left aside; a property of kind `object` takes a text as it is.
Whatever coercion yields fits the kind (`admits_of_coerce`).
-/

namespace MarkupForms.Hydration

/-- What markup supplies for a property. -/
inductive RawValue where
  | text (s : String)
  | object (id : ObjectId)
  deriving Repr, DecidableEq

/-- The text of a raw value that is one. -/
def RawValue.asText? : RawValue → Option String
  | .text s => some s
  | .object _ => none

/-- Why a raw value does not become a value of the kind that `property` has. -/
inductive CoercionFault where
  | unreadable (property : String) (kind : ValueKind) (text : String)
  | unexpectedObject (property : String) (kind : ValueKind) (typeName : String)
  deriving Repr, DecidableEq

/-- What a property of this kind expects. -/
def expectation : ValueKind → String
  | .text => "text"
  | .int => "an integer"
  | .float => "a number"
  | .bool => "a boolean"
  | .enum info => "a `" ++ info.name ++ "` member"
  | .object => "an object"
  | .list => "a bound list"

/-- The members to choose from, behind a complaint about an enumeration. -/
def memberHint : ValueKind → String
  | .enum info => " (one of " ++ ", ".intercalate info.members ++ ")"
  | _ => ""

/-- The text of a fault. -/
def CoercionFault.message : CoercionFault → String
  | .unreadable property kind text =>
    "`" ++ property ++ "` expects " ++ expectation kind ++ ", got `" ++ text ++ "`" ++
      memberHint kind
  | .unexpectedObject property kind typeName =>
    "`" ++ property ++ "` expects " ++ expectation kind ++ ", got a `" ++ typeName ++ "` object"

/-- The truth value that a text spells: either word in lower case or with a capital. -/
def readBool? (cs : List Char) : Option Bool :=
  if cs = "true".toList ∨ cs = "True".toList then some true
  else if cs = "false".toList ∨ cs = "False".toList then some false
  else none

/-- The value that a text spells under a kind. -/
def readValue? (kind : ValueKind) (text : String) : Option Value :=
  let trimmed := Text.trim text.toList
  match kind with
  | .text | .object => some (.text text)
  | .int => (Decimal.readInt64? trimmed).map .int
  | .float => (Decimal.readFloat? trimmed).map .float
  | .bool => (readBool? trimmed).map .bool
  | .enum info => (info.member? (String.ofList trimmed)).map .enum
  | .list => none

/-- The value of a raw value under a kind. `property` names the property in complaints and `typeOf`
the type of an object. -/
def coerce (typeOf : ObjectId → String) (kind : ValueKind) (property : String) :
    RawValue → Except CoercionFault Value
  | .object id =>
    match kind with
    | .object => .ok (.object id)
    | _ => .error (.unexpectedObject property kind (typeOf id))
  | .text text =>
    match readValue? kind text with
    | some value => .ok value
    | none => .error (.unreadable property kind text)

/-- A value that was read fits its kind. -/
theorem admits_of_readValue? {kind : ValueKind} {text : String} {value : Value}
    (h : readValue? kind text = some value) : kind.admits value = true := by
  cases kind with
  | text | object => simp only [readValue?, Option.some.injEq] at h; subst h; rfl
  | int | float | bool =>
    obtain ⟨_, _, rfl⟩ := Option.map_eq_some_iff.1 h
    rfl
  | enum info =>
    obtain ⟨m, hm, rfl⟩ := Option.map_eq_some_iff.1 h
    have := EnumInfo.member?_eq_some_iff.1 hm
    obtain ⟨rfl, _⟩ := this
    simp [ValueKind.admits, hm]
  | list => simp [readValue?] at h

/-- Coercion yields fitting values only. -/
theorem admits_of_coerce {typeOf : ObjectId → String} {kind : ValueKind} {property : String}
    {raw : RawValue} {value : Value} (h : coerce typeOf kind property raw = .ok value) :
    kind.admits value = true := by
  unfold coerce at h
  split at h
  · split at h
    · simp only [Except.ok.injEq] at h; subst h; rfl
    · simp at h
  · split at h
    · next hread =>
      simp only [Except.ok.injEq] at h
      subst h
      exact admits_of_readValue? hread
    · simp at h

end MarkupForms.Hydration
