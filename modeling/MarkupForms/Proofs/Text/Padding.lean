import MarkupForms.Text.Blank

/-!
# Padded texts

Trimming takes away the blanks that were put around a text, and of a text that neither starts nor
ends with a blank it takes nothing.
-/

namespace MarkupForms.Text

/-- A text of blanks only. -/
def IsPadding (s : String) : Prop :=
  ∀ c ∈ s.toList, isBlank c = true

/-- A text that does not start with a blank. -/
def StartsTight (s : String) : Prop :=
  ∀ c, s.toList.head? = some c → isBlank c = false

/-- A text that does not end with a blank. -/
def EndsTight (s : String) : Prop :=
  ∀ c, s.toList.getLast? = some c → isBlank c = false

theorem notMem_of_isPadding {s : String} (h : IsPadding s) {c : Char} (hc : isBlank c = false) :
    c ∉ s.toList := by
  intro hmem
  rw [h c hmem] at hc
  cases hc

theorem startsTight_append {lead : String} (hne : lead ≠ "") (h : StartsTight lead) (s : String) :
    StartsTight (lead ++ s) := by
  intro c hc
  apply h c
  cases hlead : lead.toList with
  | nil => exact absurd (String.toList_eq_nil_iff.1 hlead) hne
  | cons first behind => simpa [hlead] using hc

theorem endsTight_append {s : String} (hne : s ≠ "") (h : EndsTight s) (lead : String) :
    EndsTight (lead ++ s) := by
  intro c hc
  apply h c
  have hs : s.toList ≠ [] := mt String.toList_eq_nil_iff.1 hne
  rw [String.toList_append, List.getLast?_append, List.getLast?_eq_some_getLast hs] at hc
  rw [List.getLast?_eq_some_getLast hs]
  exact hc

theorem trimLeft_of_head {cs : List Char} (h : ∀ c, cs.head? = some c → isBlank c = false) :
    trimLeft cs = cs := by
  cases cs with
  | nil => rfl
  | cons c cs => simp [trimLeft, h c rfl]

theorem trimLeft_append (cs ds : List Char) :
    trimLeft (cs ++ ds) = if (trimLeft cs).isEmpty then trimLeft ds else trimLeft cs ++ ds :=
  List.dropWhile_append

theorem trimRight_of_getLast {cs : List Char} (h : ∀ c, cs.getLast? = some c → isBlank c = false) :
    trimRight cs = cs := by
  have hreverse : trimLeft cs.reverse = cs.reverse := by
    apply trimLeft_of_head
    intro c hc
    rw [List.head?_reverse] at hc
    exact h c hc
  rw [trimRight, ← trimLeft, hreverse, List.reverse_reverse]

/-- Nothing is trimmed from characters without a blank at either end. -/
theorem trim_of_ends {cs : List Char} (hfirst : ∀ c, cs.head? = some c → isBlank c = false)
    (hlast : ∀ c, cs.getLast? = some c → isBlank c = false) : trim cs = cs := by
  rw [trim, trimLeft_of_head hfirst, trimRight_of_getLast hlast]

/-- Trimming does not see the blanks around other characters. -/
theorem trim_append_of_blank {before behind : List Char} (hbefore : ∀ c ∈ before, isBlank c = true)
    (hbehind : ∀ c ∈ behind, isBlank c = true) (cs : List Char) :
    trim (before ++ cs ++ behind) = trim cs := by
  have hblank : trimLeft behind = [] := by
    rw [← List.append_nil behind]
    exact trimLeft_append_of_blank hbehind
  rw [List.append_assoc, trim, trimLeft_append_of_blank hbefore, trimLeft_append, trim]
  split
  · next hempty => rw [hblank, List.isEmpty_iff.1 hempty]
  · exact trimRight_append_of_blank hbehind

/-- Trimming does not see the blanks around a text. -/
theorem trim_padded {before behind : String} (hbefore : IsPadding before)
    (hbehind : IsPadding behind) (s : String) :
    trim (before ++ s ++ behind).toList = trim s.toList := by
  rw [String.toList_append, String.toList_append]
  exact trim_append_of_blank hbefore hbehind s.toList

/-- A text without blanks at its ends is what is left of it when it was padded. -/
theorem trim_padded_of_tight {before behind s : String} (hbefore : IsPadding before)
    (hbehind : IsPadding behind) (hstarts : StartsTight s) (hends : EndsTight s) :
    trim (before ++ s ++ behind).toList = s.toList := by
  rw [trim_padded hbefore hbehind]
  exact trim_of_ends hstarts hends

end MarkupForms.Text
