/-!
# ASCII letters and digits

Tests and case changes for the letters and digits of ASCII. All other characters are no letters here
and have no case.
-/

namespace MarkupForms.Text

/-- A capital letter of ASCII. -/
def isAsciiUpper (c : Char) : Bool :=
  65 ≤ c.toNat && c.toNat ≤ 90

/-- A small letter of ASCII. -/
def isAsciiLower (c : Char) : Bool :=
  97 ≤ c.toNat && c.toNat ≤ 122

/-- A digit of ASCII. -/
def isAsciiDigit (c : Char) : Bool :=
  48 ≤ c.toNat && c.toNat ≤ 57

/-- The small form of a capital letter; other characters stay as they are. -/
def lowerAscii (c : Char) : Char :=
  if isAsciiUpper c then Char.ofNat (c.toNat + 32) else c

/-- A character that is no capital letter is its own small form. -/
theorem lowerAscii_of_not_upper {c : Char} (h : isAsciiUpper c = false) : lowerAscii c = c := by
  simp [lowerAscii, h]

/-- The small form of a capital letter is a small letter. -/
theorem isAsciiLower_lowerAscii {c : Char} (h : isAsciiUpper c = true) :
    isAsciiLower (lowerAscii c) = true := by
  simp only [lowerAscii, h, if_true, isAsciiLower]
  simp only [isAsciiUpper, Bool.and_eq_true, decide_eq_true_eq] at h
  have hvalid : (c.toNat + 32).isValidChar := Or.inl (by omega)
  have : (Char.ofNat (c.toNat + 32)).toNat = c.toNat + 32 := by
    rw [Char.ofNat, dif_pos hvalid]; rfl
  rw [this]
  simp only [Bool.and_eq_true, decide_eq_true_eq]
  omega

end MarkupForms.Text
