import MarkupForms.Proofs.Accessors.Identifier
import MarkupForms.Proofs.Accessors.TypePath

/-!
# What a field name keeps of its id

Folding sets underscores between the words of an id, writes them small, and marks what is reserved.
All of that can be undone up to underscores and case: a name without its mark has the letters and
digits of the id, in small form and in order (`FoldsTo`). So only ids that agree up to underscores
and case can collide, and folding a plain name once more changes nothing.
-/

namespace MarkupForms.Accessors

open Markup Text

/-! ## The rule -/

/-- An id, by the library's classes of ASCII characters: a letter or an underscore, then letters,
digits and underscores. -/
def ValidId (id : String) : Prop :=
  ∃ first rest, id.toList = first :: rest ∧ (first.isAlpha = true ∨ first = '_') ∧
    ∀ c ∈ rest, c.isAlphanum = true ∨ c = '_'

/-- The name begins with the mark of raw names. -/
def IsRaw (name : String) : Prop :=
  ['r', '#'] <+: name.toList

/-- A name without the mark of raw names. -/
def withoutMark (name : String) : List Char :=
  (strip? ['r', '#'] name.toList).getD name.toList

/-- What is left of a text without its underscores. -/
def withoutUnderscores (cs : List Char) : List Char :=
  cs.filter (· ≠ '_')

/-- What an id is up to underscores and case. -/
def essence (id : String) : List Char :=
  withoutUnderscores (id.toList.map Char.toLower)

/-- The name is one that the id may fold to: a plain word of small letters, digits and underscores,
with the letters and digits of the id. -/
structure FoldsTo (id name : String) : Prop where
  small : ∀ c ∈ withoutMark name, c.isLower = true ∨ c.isDigit = true ∨ c = '_'
  start : ∃ first rest, withoutMark name = first :: rest ∧ first.isDigit = false
  essence : withoutUnderscores (withoutMark name) = essence id

/-! ## Characters of ids -/

theorem isAsciiLower_eq_isLower (c : Char) : isAsciiLower c = c.isLower :=
  rfl

theorem isAsciiDigit_eq_isDigit (c : Char) : isAsciiDigit c = c.isDigit :=
  rfl

theorem isAlpha_eq (c : Char) : c.isAlpha = (isAsciiUpper c || isAsciiLower c) := by
  rw [isAsciiUpper_eq_isUpper, isAsciiLower_eq_isLower]
  rfl

theorem isAlphanum_iff {c : Char} : c.isAlphanum = true ↔ c.isAlpha = true ∨ c.isDigit = true :=
  Bool.or_eq_true_iff

theorem startsId_iff {c : Char} : startsId c = true ↔ c.isAlpha = true ∨ c = '_' := by
  rw [startsId, isAlpha_eq, Bool.or_eq_true, beq_iff_eq]

theorem continuesId_iff {c : Char} : continuesId c = true ↔ c.isAlphanum = true ∨ c = '_' := by
  rw [continuesId, Bool.or_eq_true, startsId_iff, isAsciiDigit_eq_isDigit, isAlphanum_iff]
  exact or_right_comm

/-- Digits start no id. -/
theorem not_digit_of_startsId {c : Char} (h : startsId c = true) : c.isDigit = false := by
  rw [← isAsciiDigit_eq_isDigit]
  simp only [startsId, isAsciiUpper, isAsciiLower, isAsciiDigit, Bool.or_eq_true, Bool.and_eq_true,
    decide_eq_true_eq, beq_iff_eq, Bool.and_eq_false_iff, decide_eq_false_iff_not] at h ⊢
  rcases h with h | rfl
  · omega
  · decide

theorem isId_iff {id : String} : isId id.toList = true ↔ ValidId id := by
  constructor
  · intro h
    cases hid : id.toList with
    | nil =>
      rw [hid] at h
      cases h
    | cons first rest =>
      rw [hid] at h
      obtain ⟨hfirst, hrest⟩ := Bool.and_eq_true_iff.1 h
      exact ⟨first, rest, hid, startsId_iff.1 hfirst,
        fun c hc => continuesId_iff.1 (List.all_eq_true.1 hrest c hc)⟩
  · rintro ⟨first, rest, hid, hfirst, hrest⟩
    rw [hid]
    refine Bool.and_eq_true_iff.2 ⟨startsId_iff.2 hfirst, List.all_eq_true.2 fun c hc => ?_⟩
    exact continuesId_iff.2 (hrest c hc)

/-! ## Folding once and twice -/

theorem withoutUnderscores_append (cs ds : List Char) :
    withoutUnderscores (cs ++ ds) = withoutUnderscores cs ++ withoutUnderscores ds :=
  List.filter_append ..

/-- **Folding a text** adds underscores and takes case away, wherever it begins. -/
theorem withoutUnderscores_snakeCase (afterLower : Bool) (cs : List Char) :
    withoutUnderscores (snakeCase afterLower cs) = withoutUnderscores (cs.map Char.toLower) := by
  induction cs generalizing afterLower with
  | nil => rfl
  | cons c cs ih =>
    obtain ⟨gap, next, hgap, hfolded⟩ := snakeCase_cons afterLower c cs
    have hnone : withoutUnderscores gap = [] := by
      rcases hgap with rfl | ⟨-, rfl⟩ <;> decide
    have hhead : ∀ ds, withoutUnderscores (c.toLower :: ds) = withoutUnderscores [c.toLower] ++
        withoutUnderscores ds :=
      withoutUnderscores_append [c.toLower]
    rw [hfolded, withoutUnderscores_append, hnone, List.nil_append, lowerAscii_eq_toLower,
      List.map_cons, hhead, hhead (cs.map Char.toLower), ih]

/-- Without capitals there is nothing to fold. -/
theorem snakeCase_of_not_upper {cs : List Char} (h : ∀ c ∈ cs, isAsciiUpper c = false)
    (afterLower : Bool) :
    snakeCase afterLower cs = cs := by
  induction cs generalizing afterLower with
  | nil => rfl
  | cons c cs ih =>
    obtain ⟨hc, hrest⟩ := List.forall_mem_cons.1 h
    rw [snakeCase, hc, if_neg (by decide), ih hrest]

theorem folded_folded (id : String) : folded (folded id) = folded id := by
  unfold folded
  rw [String.toList_ofList]
  exact congrArg String.ofList (snakeCase_of_not_upper (fun _ => not_upper_of_mem_snakeCase) false)

/-- A folded id is made of small letters, digits and underscores. -/
theorem small_of_mem_folded {id : String} (h : isId id.toList = true) {c : Char}
    (hc : c ∈ (folded id).toList) :
    c.isLower = true ∨ c.isDigit = true ∨ c = '_' := by
  rw [folded, String.toList_ofList] at hc
  have hcontinues : continuesId c = true :=
    List.all_eq_true.1 (ascii.all_continues_of_isWord
      (ascii.isWord_of_isId (isId_snakeCase h))) c hc
  have hupper := not_upper_of_mem_snakeCase hc
  rw [continuesId_iff, isAlphanum_iff, isAlpha_eq, hupper, Bool.false_or,
    isAsciiLower_eq_isLower] at hcontinues
  exact or_assoc.1 hcontinues

/-! ## The mark -/

theorem isRaw_raw (name : String) : IsRaw ("r#" ++ name) := by
  rw [IsRaw, String.toList_append]
  exact List.prefix_append _ _

theorem withoutMark_raw (name : String) : withoutMark ("r#" ++ name) = name.toList := by
  have hstrip : strip? ['r', '#'] ("r#" ++ name).toList = some name.toList := by
    rw [strip?_eq_some_iff, String.toList_append]
    rfl
  rw [withoutMark, hstrip, Option.getD_some]

/-- An id carries no mark. -/
theorem withoutMark_of_isId {name : String} (h : isId name.toList = true) :
    withoutMark name = name.toList := by
  rw [withoutMark, ascii.strip?_of_isWord (ascii.isWord_of_isId h), Option.getD_none]

/-- What is reserved gets one more underscore, or the mark. -/
theorem unreserved_cases (word : String) :
    (word ∈ unrawWords ∧ unreserved word = word ++ "_") ∨ unreserved word = "r#" ++ word ∨
    unreserved word = word := by
  unfold unreserved
  split
  · next hunraw => exact Or.inl ⟨hunraw, rfl⟩
  · split
    · exact Or.inr (Or.inl rfl)
    · exact Or.inr (Or.inr rfl)

/-- Apart from the mark an id stays as it is, with one more underscore at most. -/
theorem withoutMark_unreserved {word : String} (h : isId word.toList = true) :
    ∃ more, (more = [] ∨ more = ['_']) ∧ withoutMark (unreserved word) = word.toList ++ more := by
  rcases unreserved_cases word with ⟨hunraw, heq⟩ | heq | heq
  · have hlonger : ∀ listed ∈ unrawWords, withoutMark (listed ++ "_") = listed.toList ++ ['_'] := by
      decide +kernel
    exact ⟨['_'], Or.inr rfl, by rw [heq, hlonger word hunraw]⟩
  · exact ⟨[], Or.inl rfl, by rw [heq, withoutMark_raw, List.append_nil]⟩
  · exact ⟨[], Or.inl rfl, by rw [heq, withoutMark_of_isId h, List.append_nil]⟩

/-! ## Field names -/

theorem isId_folded {id : String} (h : isId id.toList = true) : isId (folded id).toList = true := by
  rw [folded, String.toList_ofList]
  exact isId_snakeCase h

theorem fieldName?_of_isId {id : String} (h : isId id.toList = true) :
    fieldName? id = some (unreserved (folded id)) :=
  if_pos h

/-- What is folded is marked, or it is its own field name. -/
theorem isRaw_or_fixed {word : String} (h : isId word.toList = true)
    (hfolded : folded word = word) :
    IsRaw (unreserved word) ∨ fieldName? (unreserved word) = some (unreserved word) := by
  rcases unreserved_cases word with ⟨hunraw, heq⟩ | heq | heq
  · have hlonger : ∀ listed ∈ unrawWords, fieldName? (listed ++ "_") = some (listed ++ "_") := by
      decide +kernel
    right
    rw [heq, hlonger word hunraw]
  · left
    rw [heq]
    exact isRaw_raw word
  · right
    rw [heq, fieldName?_of_isId h, hfolded, heq]

/-- An id folds to its field name. -/
theorem foldsTo_unreserved {id : String} (h : isId id.toList = true) :
    FoldsTo id (unreserved (folded id)) := by
  obtain ⟨more, hmore, hplain⟩ := withoutMark_unreserved (isId_folded h)
  refine ⟨?_, ?_, ?_⟩
  · intro c hc
    rw [hplain, List.mem_append] at hc
    rcases hc with hc | hc
    · exact small_of_mem_folded h hc
    · rcases hmore with rfl | rfl
      · cases hc
      · exact Or.inr (Or.inr (List.mem_singleton.1 hc))
  · have hid := isId_folded h
    cases hword : (folded id).toList with
    | nil =>
      rw [hword] at hid
      cases hid
    | cons first rest =>
      rw [hword] at hid
      refine ⟨first, rest ++ more, by rw [hplain, hword, List.cons_append], ?_⟩
      exact not_digit_of_startsId (Bool.and_eq_true_iff.1 hid).1
  · have hnone : withoutUnderscores more = [] := by
      rcases hmore with rfl | rfl <;> decide
    rw [hplain, withoutUnderscores_append, hnone, List.append_nil, folded, String.toList_ofList,
      withoutUnderscores_snakeCase]
    rfl

/-- **Folding loses case and adds underscores, and nothing else.** Every valid id has a field name,
which is a word of small letters, digits and underscores with the letters and digits of the id; ids
with the same field name agree up to underscores and case; a field name without the mark of raw
names is its own field name; and no other text has a field name: it is refused as an invalid id. -/
theorem fieldName_folds :
    (∀ id, ValidId id → ∃ name, fieldName? id = some name ∧ FoldsTo id name) ∧
      (∀ id other name, fieldName? id = some name → fieldName? other = some name →
        essence id = essence other) ∧
      (∀ id name, fieldName? id = some name → ¬ IsRaw name → fieldName? name = some name) ∧
      ∀ id, ¬ ValidId id → fieldName? id = none ∧
        ∀ classNamespace tag, fieldOf classNamespace tag id = .error (.invalidId id) := by
  refine ⟨?_, ?_, ?_, ?_⟩
  · intro id hvalid
    have hid := isId_iff.2 hvalid
    exact ⟨_, fieldName?_of_isId hid, foldsTo_unreserved hid⟩
  · intro id other name hname hother
    obtain ⟨hid, heq⟩ := isId_of_fieldName? hname
    obtain ⟨hotherId, hotherEq⟩ := isId_of_fieldName? hother
    rw [← (foldsTo_unreserved hid).essence, ← (foldsTo_unreserved hotherId).essence, ← heq,
      ← hotherEq]
  · intro id name hname hplain
    obtain ⟨hid, rfl⟩ := isId_of_fieldName? hname
    exact (isRaw_or_fixed (isId_folded hid) (folded_folded id)).resolve_left hplain
  · intro id hinvalid
    have hnone : fieldName? id = none := if_neg fun h => hinvalid (isId_iff.1 h)
    refine ⟨hnone, fun classNamespace tag => ?_⟩
    rw [fieldOf, hnone]

theorem fieldName_folds_nameEntry :
    (ValidId "NameEntry" ∧ ∃ name, fieldName? "NameEntry" = some name ∧ FoldsTo "NameEntry" name) ∧
      (fieldName? "NameEntry" = some "name_entry" ∧ fieldName? "Name_Entry" = some "name_entry" ∧
        essence "NameEntry" = essence "Name_Entry") ∧
      (¬ IsRaw "name_entry" ∧ fieldName? "name_entry" = some "name_entry") ∧
      ¬ ValidId "0abc" ∧ fieldName? "0abc" = none := by
  have hvalid : ValidId "NameEntry" := isId_iff.1 (by decide +kernel)
  have hinvalid : ¬ ValidId "0abc" := fun h => absurd (isId_iff.2 h) (by decide +kernel)
  have hname : fieldName? "NameEntry" = some "name_entry" := by decide +kernel
  have hother : fieldName? "Name_Entry" = some "name_entry" := by decide +kernel
  have hplain : ¬ IsRaw "name_entry" := by
    unfold IsRaw
    decide +kernel
  obtain ⟨hfolds, hessence, hfixed, hrefused⟩ := fieldName_folds
  exact ⟨⟨hvalid, hfolds _ hvalid⟩, ⟨hname, hother, hessence _ _ _ hname hother⟩,
    ⟨hplain, hfixed _ _ hname hplain⟩, hinvalid, (hrefused _ hinvalid).1⟩

example : fieldName? "Type" = some "r#type" ∧ fieldName? "Self" = some "self_" := by
  decide +kernel

end MarkupForms.Accessors
