/-!
# Cutting text at a character

All cuts work on lists of characters; the `String` forms wrap them. `splitAt?` cuts at the first
occurrence, `splitAtLast?` at the last one, `splitAll` at each.
-/

namespace MarkupForms.Text

/-- The parts before and after the first `sep`, or `none` if there is no `sep`. -/
def splitAt? (sep : Char) : List Char → Option (List Char × List Char)
  | [] => none
  | c :: cs =>
    if c = sep then some ([], cs)
    else (splitAt? sep cs).map fun parts => (c :: parts.1, parts.2)

/-- The parts before and after the last `sep`, or `none` if there is no `sep`. -/
def splitAtLast? (sep : Char) (cs : List Char) : Option (List Char × List Char) :=
  (splitAt? sep cs.reverse).map fun parts => (parts.2.reverse, parts.1.reverse)

/-- The parts between the occurrences of `sep`; there is always at least one. -/
def splitAll (sep : Char) : List Char → List (List Char)
  | [] => [[]]
  | c :: cs =>
    if c = sep then [] :: splitAll sep cs
    else
      match splitAll sep cs with
      | [] => [[c]]
      | part :: parts => (c :: part) :: parts

/-- `rest` if `cs` is `lead` followed by `rest`. -/
def strip? : (lead cs : List Char) → Option (List Char)
  | [], cs => some cs
  | _ :: _, [] => none
  | l :: lead, c :: cs => if l = c then strip? lead cs else none

/-- Whether `needle` occurs in the text as a run of consecutive characters. -/
def occurs (needle : List Char) : List Char → Bool
  | [] => needle.isEmpty
  | c :: cs => (strip? needle (c :: cs)).isSome || occurs needle cs

/-- A cut is exact: the parts and the separator between them make up the text, and the first part
holds no separator. -/
theorem splitAt?_eq_some {sep : Char} {cs before after : List Char}
    (h : splitAt? sep cs = some (before, after)) :
    cs = before ++ sep :: after ∧ sep ∉ before := by
  induction cs generalizing before with
  | nil => simp [splitAt?] at h
  | cons c cs ih =>
    unfold splitAt? at h
    split at h
    · next hc =>
      simp only [Option.some.injEq, Prod.mk.injEq] at h
      simp [← h.1, ← h.2, hc]
    · next hc =>
      obtain ⟨⟨b, a⟩, hba, heq⟩ := Option.map_eq_some_iff.1 h
      simp only [Prod.mk.injEq] at heq
      obtain ⟨rfl, rfl⟩ := heq
      obtain ⟨rfl, hnot⟩ := ih hba
      exact ⟨rfl, by simp only [List.mem_cons, not_or]; exact ⟨Ne.symm hc, hnot⟩⟩

/-- There is no cut exactly when the separator does not occur. -/
theorem splitAt?_eq_none_iff {sep : Char} {cs : List Char} :
    splitAt? sep cs = none ↔ sep ∉ cs := by
  induction cs with
  | nil => simp [splitAt?]
  | cons c cs ih =>
    by_cases hc : c = sep
    · simp [splitAt?, hc]
    · simp [splitAt?, hc, ih, Ne.symm hc]

/-- The cut is at the first separator. -/
theorem splitAt?_append {sep : Char} {before : List Char} (after : List Char) (h : sep ∉ before) :
    splitAt? sep (before ++ sep :: after) = some (before, after) := by
  induction before with
  | nil => simp [splitAt?]
  | cons c before ih =>
    rw [List.mem_cons, not_or] at h
    rw [List.cons_append, splitAt?, if_neg (Ne.symm h.1), ih h.2]
    rfl

/-- The cut from the end is at the last separator. -/
theorem splitAtLast?_append {sep : Char} (before : List Char) {after : List Char}
    (h : sep ∉ after) :
    splitAtLast? sep (before ++ sep :: after) = some (before, after) := by
  have hreverse : (before ++ sep :: after).reverse = after.reverse ++ sep :: before.reverse := by
    simp
  rw [splitAtLast?, hreverse, splitAt?_append before.reverse (by simpa using h)]
  simp

theorem splitAtLast?_eq_none_iff {sep : Char} {cs : List Char} : splitAtLast? sep cs = none ↔
    sep ∉ cs := by
  rw [splitAtLast?, Option.map_eq_none_iff, splitAt?_eq_none_iff, List.mem_reverse]

/-- A cut from the end is exact, too, and there the second part holds no separator. -/
theorem splitAtLast?_eq_some {sep : Char} {cs before after : List Char}
    (h : splitAtLast? sep cs = some (before, after)) :
    cs = before ++ sep :: after ∧ sep ∉ after := by
  obtain ⟨⟨behind, front⟩, hcut, hparts⟩ := Option.map_eq_some_iff.1 h
  obtain ⟨hreverse, hnone⟩ := splitAt?_eq_some hcut
  obtain ⟨rfl, rfl⟩ := Prod.mk.inj hparts
  refine ⟨?_, by simpa using hnone⟩
  rw [← List.reverse_reverse cs, hreverse]
  simp

/-- Cutting at every separator is what the library calls splitting. -/
theorem splitAll_eq_splitOn (sep : Char) (cs : List Char) : splitAll sep cs = cs.splitOn sep := by
  induction cs with
  | nil => rfl
  | cons c cs ih =>
    rw [splitAll, List.splitOn_cons_eq_if_modifyHead, ih]
    by_cases hc : c = sep
    · simp [hc]
    · rw [if_neg hc, if_neg (by simpa using hc)]
      cases hparts : cs.splitOn sep with
      | nil => exact absurd hparts (List.splitOn_ne_nil sep cs)
      | cons part parts => rfl

/-- Stripping is the inverse of prepending. -/
theorem strip?_eq_some_iff {lead cs rest : List Char} :
    strip? lead cs = some rest ↔ cs = lead ++ rest := by
  induction lead generalizing cs with
  | nil => simp [strip?]
  | cons l lead ih =>
    cases cs with
    | nil => simp [strip?]
    | cons c cs =>
      by_cases h : l = c
      · subst h; simp [strip?, ih]
      · simp only [strip?, h, if_false, List.cons_append, List.cons.injEq]
        constructor
        · intro hn; exact absurd hn (by simp)
        · intro hn; exact absurd hn.1.symm h

end MarkupForms.Text
