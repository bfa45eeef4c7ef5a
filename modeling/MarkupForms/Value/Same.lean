import MarkupForms.Value.Basic

/-!
# When two values are the same

Scalars compare by value, floats as numbers (a not-a-number differs from itself, the zeros agree).
Objects compare by identity. Lists agree when they have equally many records and the records agree
one by one; two records agree when they have equally many paths and each path of the first leads to
the same value in the second, in whatever order they were inserted.
-/

namespace MarkupForms.Value

mutual

/-- Whether two values are the same. -/
def same : Value → Value → Bool
  | .text a, .text b => a == b
  | .int a, .int b => a == b
  | .float a, .float b => a == b
  | .bool a, .bool b => a == b
  | .enum a, .enum b => a == b
  | .object a, .object b => a == b
  | .list as, .list bs => sameRows as bs
  | _, _ => false

/-- Whether two lists of records agree one by one. -/
def sameRows : List BindingContext → List BindingContext → Bool
  | [], [] => true
  | a :: as, b :: bs => sameRecord a b && sameRows as bs
  | _, _ => false

/-- Whether two records hold the same values under the same paths. -/
def sameRecord : BindingContext → BindingContext → Bool
  | ⟨entries⟩, b => entries.length == b.size && sameEntries entries b

/-- Whether each entry is found in `b` with the same value. -/
def sameEntries : List (String × Value) → BindingContext → Bool
  | [], _ => true
  | (path, value) :: rest, b =>
    (match b.get? path with
      | some other => same value other
      | none => false) && sameEntries rest b

end

end MarkupForms.Value
