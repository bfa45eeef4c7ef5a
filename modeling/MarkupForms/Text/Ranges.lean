/-!
# Sets of code points

Character classes are tables of closed code point ranges.
-/

namespace MarkupForms.Text

/-- Whether `n` lies in one of the closed ranges of `table`. -/
def inRanges (table : List (Nat × Nat)) (n : Nat) : Bool :=
  table.any fun range => range.1 ≤ n && n ≤ range.2

end MarkupForms.Text
