/-!
# White space

Blank characters are those with the Unicode property White_Space. Trimming removes them from the
ends of a text; a text is blank when nothing else is in it.
-/

namespace MarkupForms.Text

/-- The characters with the property White_Space. -/
def isBlank (c : Char) : Bool :=
  let n := c.toNat
  (0x09 ≤ n && n ≤ 0x0d) || n == 0x20 || n == 0x85 || n == 0xa0 || n == 0x1680 ||
    (0x2000 ≤ n && n ≤ 0x200a) || n == 0x2028 || n == 0x2029 || n == 0x202f || n == 0x205f ||
    n == 0x3000

/-- `cs` without the blanks at its start. -/
def trimLeft (cs : List Char) : List Char :=
  cs.dropWhile isBlank

/-- `cs` without the blanks at its end. -/
def trimRight (cs : List Char) : List Char :=
  (cs.reverse.dropWhile isBlank).reverse

/-- `cs` without the blanks at either end. -/
def trim (cs : List Char) : List Char :=
  trimRight (trimLeft cs)

/-- `s` without the blanks at either end. -/
def trimmed (s : String) : String :=
  String.ofList (trim s.toList)

/-- A text of blanks only; the empty text is one. -/
def isAllBlank (cs : List Char) : Bool :=
  cs.all isBlank

theorem trimLeft_append_of_blank {pad cs : List Char} (h : ∀ c ∈ pad, isBlank c = true) :
    trimLeft (pad ++ cs) = trimLeft cs := by
  induction pad with
  | nil => rfl
  | cons c pad ih =>
    simp only [List.mem_cons, forall_eq_or_imp] at h
    simpa [trimLeft, List.dropWhile_cons, h.1] using ih h.2

theorem trimRight_append_of_blank {cs pad : List Char} (h : ∀ c ∈ pad, isBlank c = true) :
    trimRight (cs ++ pad) = trimRight cs := by
  have := @trimLeft_append_of_blank pad.reverse cs.reverse (by simpa using h)
  simp only [trimLeft] at this
  simp [trimRight, this]

end MarkupForms.Text
