/-!
# Kinds of property values

Every property declares the kind of value it takes. An enumeration is a closed list of member names;
two enumerations are the same kind when name and members agree.
-/

namespace MarkupForms

/-- A closed set of named members. -/
structure EnumInfo where
  name : String
  members : List String
  deriving Repr, DecidableEq

/-- The member spelled exactly `name`. -/
def EnumInfo.member? (info : EnumInfo) (name : String) : Option String :=
  info.members.find? (· == name)

/-- What a property accepts. A property of kind `object` takes any value, nested objects included;
one of kind `list` takes row records. -/
inductive ValueKind where
  | text
  | int
  | float
  | bool
  | enum (info : EnumInfo)
  | object
  | list
  deriving Repr, DecidableEq

theorem EnumInfo.member?_eq_some_iff {info : EnumInfo} {name m : String} :
    info.member? name = some m ↔ m = name ∧ name ∈ info.members := by
  unfold EnumInfo.member?
  constructor
  · intro h
    have hm := List.find?_some h
    have heq : m = name := by simpa using hm
    exact ⟨heq, heq ▸ List.mem_of_find?_eq_some h⟩
  · rintro ⟨rfl, h⟩
    cases hf : info.members.find? (· == m) with
    | none => exact absurd (List.find?_eq_none.1 hf m h) (by simp)
    | some x =>
      have := List.find?_some hf
      simpa using this

end MarkupForms
