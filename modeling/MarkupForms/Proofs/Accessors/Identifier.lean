import MarkupForms.Accessors.Source
import MarkupForms.Proofs.Accessors.Scan

/-!
# Names in generated source text

The structure that is generated is named after the class, its fields after ids. Whether these names
are identifiers of the language that the source text is written in is decided here against the
language's own rules: a letter or an underscore, then letters, digits and underscores, not the
underscore alone, and no keyword unless marked as a raw name, which a few keywords cannot be.

Folding an id keeps it a word, and most keywords are marked. Those in `overlookedWords` are not, and
neither is the lone underscore refused. The class is not looked at.
-/

namespace MarkupForms.Accessors

open Markup Text

/-! ## The rules of the language -/

/-- What counts as a letter and what as a digit. Inside ASCII that is fixed, outside it is left
open. -/
structure Alphabet where
  isLetter : Char → Bool
  isDigit : Char → Bool
  isLetter_ascii (c : Char) : c.toNat < 128 → isLetter c = (isAsciiUpper c || isAsciiLower c)
  isDigit_ascii (c : Char) : c.toNat < 128 → isDigit c = isAsciiDigit c

/-- The letters and digits of ASCII. -/
def ascii : Alphabet where
  isLetter c := isAsciiUpper c || isAsciiLower c
  isDigit := isAsciiDigit
  isLetter_ascii _ _ := rfl
  isDigit_ascii _ _ := rfl

/-- Keywords in use. -/
def strictKeywords : List String := [
  "as", "async", "await", "break", "const", "continue", "crate", "dyn", "else", "enum", "extern",
  "false", "fn", "for", "if", "impl", "in", "let", "loop", "match", "mod", "move", "mut", "pub",
  "ref", "return", "self", "Self", "static", "struct", "super", "trait", "true", "type", "unsafe",
  "use", "where", "while"]

/-- Keywords that are kept for later, except `gen`. -/
def overlookedWords : List String := [
  "abstract", "become", "box", "do", "final", "macro", "override", "priv", "try", "typeof",
  "unsized", "virtual", "yield"]

/-- All keywords. -/
def keywords : List String :=
  strictKeywords ++ "gen" :: overlookedWords

/-- Keywords that cannot be raw names. -/
def neverRaw : List String := ["crate", "self", "super", "Self"]

namespace Alphabet

variable (A : Alphabet)

/-- A character that may start a word. -/
def starts (c : Char) : Bool :=
  A.isLetter c || c == '_'

/-- A character that may continue a word. -/
def continues (c : Char) : Bool :=
  A.starts c || A.isDigit c

/-- A letter or an underscore, then letters, digits and underscores. -/
def isWord : List Char → Bool
  | [] => false
  | c :: cs => A.starts c && cs.all A.continues

/-- Whether a name is an identifier: a raw one, or a plain one. -/
def isIdentifier (name : String) : Bool :=
  match strip? ['r', '#'] name.toList with
  | some raw => A.isWord raw && String.ofList raw != "_" && !neverRaw.contains (String.ofList raw)
  | none => A.isWord name.toList && name != "_" && !keywords.contains name

/-! ## Words -/

theorem continues_of_starts {c : Char} (h : A.starts c = true) : A.continues c = true := by
  rw [continues, h, Bool.true_or]

theorem isWord_append {cs ds : List Char} (hcs : A.isWord cs = true)
    (hds : ds.all A.continues = true) :
    A.isWord (cs ++ ds) = true := by
  cases cs with
  | nil => cases hcs
  | cons c cs =>
    obtain ⟨hc, hrest⟩ := Bool.and_eq_true_iff.1 hcs
    show (A.starts c && (cs ++ ds).all A.continues) = true
    rw [hc, List.all_append, hrest, hds]
    rfl

theorem all_continues_of_isWord {cs : List Char} (h : A.isWord cs = true) :
    cs.all A.continues = true := by
  cases cs with
  | nil => cases h
  | cons c cs =>
    obtain ⟨hc, hrest⟩ := Bool.and_eq_true_iff.1 h
    rw [List.all_cons, A.continues_of_starts hc, hrest]
    rfl

/-- In front of a word stands a word or nothing. -/
theorem isWord_append_iff {cs ds : List Char} (hds : A.isWord ds = true) :
    A.isWord (cs ++ ds) = true ↔ cs = [] ∨ A.isWord cs = true := by
  constructor
  · intro h
    cases cs with
    | nil => exact Or.inl rfl
    | cons c cs =>
      have hall : (A.starts c && (cs ++ ds).all A.continues) = true := h
      rw [List.all_append, ← Bool.and_assoc] at hall
      exact Or.inr (Bool.and_eq_true_iff.1 hall).1
  · rintro (rfl | hcs)
    · exact hds
    · exact A.isWord_append hcs (A.all_continues_of_isWord hds)

/-- In ASCII every alphabet goes on as ids do. -/
theorem continues_ascii {c : Char} (h : c.toNat < 128) : A.continues c = continuesId c := by
  unfold continues starts
  rw [A.isLetter_ascii c h, A.isDigit_ascii c h]
  rfl

/-- What is no id character in ASCII stands in no word. -/
theorem not_isWord_of_mem {c : Char} (hascii : c.toNat < 128) (hother : continuesId c = false)
    {cs : List Char} (hmem : c ∈ cs) : ¬ A.isWord cs = true := by
  intro hword
  have hcontinues := List.all_eq_true.1 (A.all_continues_of_isWord hword) c hmem
  rw [A.continues_ascii hascii, hother] at hcontinues
  cases hcontinues

/-- A word carries no mark. -/
theorem strip?_of_isWord {cs : List Char} (h : A.isWord cs = true) :
    strip? ['r', '#'] cs = none := by
  cases hstrip : strip? ['r', '#'] cs with
  | none => rfl
  | some raw =>
    rw [strip?_eq_some_iff] at hstrip
    have hhash : '#' ∈ cs := by
      rw [hstrip]
      simp
    exact absurd h (A.not_isWord_of_mem (by decide) (by decide) hhash)

/-- A word that is not marked. -/
theorem isIdentifier_of_isWord {name : String} (h : A.isWord name.toList = true) :
    A.isIdentifier name = true ↔ name ≠ "_" ∧ name ∉ keywords := by
  unfold isIdentifier
  rw [A.strip?_of_isWord h]
  simp [h]

/-- What is marked. -/
theorem isIdentifier_raw (name : String) :
    A.isIdentifier ("r#" ++ name) = true ↔ A.isWord name.toList = true ∧ name ≠ "_" ∧
    name ∉ neverRaw := by
  have hstrip : strip? ['r', '#'] ("r#" ++ name).toList = some name.toList := by
    rw [strip?_eq_some_iff, String.toList_append]
    rfl
  unfold isIdentifier
  rw [hstrip]
  simp [and_assoc]

/-! ## Ids -/

theorem starts_of_startsId {c : Char} (h : startsId c = true) : A.starts c = true := by
  unfold startsId at h
  unfold starts
  by_cases hletter : (isAsciiUpper c || isAsciiLower c) = true
  · have hascii : c.toNat < 128 := by
      simp only [isAsciiUpper, isAsciiLower, Bool.or_eq_true, Bool.and_eq_true,
        decide_eq_true_eq] at hletter
      omega
    rw [A.isLetter_ascii c hascii, hletter, Bool.true_or]
  · rw [Bool.not_eq_true] at hletter
    rw [hletter, Bool.false_or] at h
    rw [h, Bool.or_true]

theorem continues_of_continuesId {c : Char} (h : continuesId c = true) : A.continues c = true := by
  unfold continuesId at h
  rcases Bool.or_eq_true_iff.1 h with hstarts | hdigit
  · exact A.continues_of_starts (A.starts_of_startsId hstarts)
  · have hascii : c.toNat < 128 := by
      simp only [isAsciiDigit, Bool.and_eq_true, decide_eq_true_eq] at hdigit
      omega
    rw [continues, A.isDigit_ascii c hascii, hdigit, Bool.or_true]

/-- An id is a word in any alphabet. -/
theorem isWord_of_isId {cs : List Char} (h : isId cs = true) : A.isWord cs = true := by
  cases cs with
  | nil => cases h
  | cons c cs =>
    obtain ⟨hc, hrest⟩ := Bool.and_eq_true_iff.1 h
    show (A.starts c && cs.all A.continues) = true
    rw [A.starts_of_startsId hc, Bool.true_and, List.all_eq_true]
    intro d hd
    exact A.continues_of_continuesId (List.all_eq_true.1 hrest d hd)

end Alphabet

/-! ## Folding -/

theorem not_upper_lowerAscii (c : Char) : isAsciiUpper (lowerAscii c) = false := by
  cases hupper : isAsciiUpper c with
  | false => rw [lowerAscii_of_not_upper hupper, hupper]
  | true =>
    have hlower := isAsciiLower_lowerAscii hupper
    simp only [isAsciiLower, isAsciiUpper, Bool.and_eq_true, decide_eq_true_eq] at hlower ⊢
    simp only [Bool.and_eq_false_iff, decide_eq_false_iff_not]
    omega

theorem startsId_lowerAscii {c : Char} (h : startsId c = true) :
    startsId (lowerAscii c) = true := by
  cases hupper : isAsciiUpper c with
  | false => rwa [lowerAscii_of_not_upper hupper]
  | true => rw [startsId, isAsciiLower_lowerAscii hupper, Bool.or_true, Bool.true_or]

theorem continuesId_lowerAscii {c : Char} (h : continuesId c = true) :
    continuesId (lowerAscii c) = true := by
  cases hupper : isAsciiUpper c with
  | false => rwa [lowerAscii_of_not_upper hupper]
  | true => rw [continuesId, startsId, isAsciiLower_lowerAscii hupper, Bool.or_true, Bool.true_or,
      Bool.true_or]

/-- **One character is folded** to its small form, with an underscore in front at most, and with
none at the start of a text. -/
theorem snakeCase_cons (afterLower : Bool) (c : Char) (cs : List Char) :
    ∃ gap next, (gap = [] ∨ afterLower = true ∧ gap = ['_']) ∧
      snakeCase afterLower (c :: cs) = gap ++ lowerAscii c :: snakeCase next cs := by
  rw [snakeCase]
  cases hupper : isAsciiUpper c with
  | false => exact ⟨[], _, Or.inl rfl, by rw [lowerAscii_of_not_upper hupper]; rfl⟩
  | true =>
    cases afterLower with
    | false => exact ⟨[], false, Or.inl rfl, rfl⟩
    | true => exact ⟨['_'], false, Or.inr ⟨rfl, rfl⟩, rfl⟩

theorem all_continuesId_snakeCase {cs : List Char} (h : cs.all continuesId = true)
    (afterLower : Bool) :
    (snakeCase afterLower cs).all continuesId = true := by
  induction cs generalizing afterLower with
  | nil => rfl
  | cons c cs ih =>
    obtain ⟨hc, hrest⟩ := Bool.and_eq_true_iff.1 (List.all_cons ▸ h)
    obtain ⟨gap, next, hgap, hfolded⟩ := snakeCase_cons afterLower c cs
    have hgap : gap.all continuesId = true := by
      rcases hgap with rfl | ⟨-, rfl⟩ <;> decide
    rw [hfolded, List.all_append, List.all_cons, hgap, continuesId_lowerAscii hc, ih hrest]
    rfl

/-- Folding an id gives an id. -/
theorem isId_snakeCase {cs : List Char} (h : isId cs = true) :
    isId (snakeCase false cs) = true := by
  cases cs with
  | nil => cases h
  | cons c cs =>
    obtain ⟨hc, hrest⟩ := Bool.and_eq_true_iff.1 h
    obtain ⟨gap, next, rfl | ⟨hafter, -⟩, hfolded⟩ := snakeCase_cons false c cs
    · rw [hfolded]
      show (startsId (lowerAscii c) && (snakeCase next cs).all continuesId) = true
      rw [startsId_lowerAscii hc, all_continuesId_snakeCase hrest]
      rfl
    · cases hafter

/-- No capital is left. -/
theorem not_upper_of_mem_snakeCase {cs : List Char} {afterLower : Bool} {c : Char}
    (h : c ∈ snakeCase afterLower cs) : isAsciiUpper c = false := by
  induction cs generalizing afterLower with
  | nil => cases h
  | cons d cs ih =>
    obtain ⟨gap, next, hgap, hfolded⟩ := snakeCase_cons afterLower d cs
    rw [hfolded, List.mem_append, List.mem_cons] at h
    rcases h with hmem | rfl | hmem
    · rcases hgap with rfl | ⟨-, rfl⟩
      · cases hmem
      · rw [List.mem_singleton.1 hmem]
        decide
    · exact not_upper_lowerAscii d
    · exact ih hmem

/-- Nothing but the underscore is folded to an underscore. -/
theorem snakeCase_eq_underscore_iff {cs : List Char} : snakeCase false cs = ['_'] ↔ cs = ['_'] := by
  constructor
  · intro h
    cases cs with
    | nil => cases h
    | cons c cs =>
      obtain ⟨gap, next, rfl | ⟨hafter, -⟩, hfolded⟩ := snakeCase_cons false c cs
      · rw [h] at hfolded
        obtain ⟨hc, hrest⟩ := List.cons.inj hfolded
        have hupper : isAsciiUpper c = false := by
          cases hupper : isAsciiUpper c with
          | false => rfl
          | true =>
            have hlower := isAsciiLower_lowerAscii hupper
            rw [← hc] at hlower
            cases hlower
        rw [lowerAscii_of_not_upper hupper] at hc
        cases cs with
        | nil => rw [hc]
        | cons d cs =>
          obtain ⟨_, _, -, hmore⟩ := snakeCase_cons next d cs
          rw [hmore] at hrest
          exact absurd hrest.symm (by simp)
      · cases hafter
  · rintro rfl
    rfl

/-- The id in small letters, with its words set apart. -/
def folded (id : String) : String :=
  String.ofList (snakeCase false id.toList)

/-! ## Field names -/

theorem isId_of_fieldName? {id name : String} (h : fieldName? id = some name) :
    isId id.toList = true ∧ name = unreserved (folded id) := by
  unfold fieldName? at h
  split at h
  · next hid => exact ⟨hid, (Option.some.inj h).symm⟩
  · cases h

theorem folded_eq_underscore_iff {id : String} : folded id = "_" ↔ id = "_" := by
  rw [folded, ← String.toList_inj, ← String.toList_inj, String.toList_ofList]
  exact snakeCase_eq_underscore_iff

/-- `Self` is not among the folded ids: it has a capital. -/
theorem folded_ne_capital {id : String} : folded id ≠ "Self" := by
  intro h
  have hmem : 'S' ∈ snakeCase false id.toList := by
    rw [← String.toList_ofList (l := snakeCase false id.toList)]
    show 'S' ∈ (folded id).toList
    rw [h]
    decide
  exact absurd (not_upper_of_mem_snakeCase hmem) (by decide)

section Fields

variable (A : Alphabet)

/-- The mark of keywords makes identifiers of all words but those that it overlooks. -/
theorem isIdentifier_unreserved {word : String} (hword : A.isWord word.toList = true)
    (hcapital : word ≠ "Self") :
    A.isIdentifier (unreserved word) = true ↔ word ≠ "_" ∧ word ∉ overlookedWords := by
  unfold unreserved
  by_cases hunraw : word ∈ unrawWords
  · have hplain : ∀ listed ∈ unrawWords,
        listed ≠ "_" ∧ listed ∉ overlookedWords ∧ listed ++ "_" ≠ "_" ∧
        listed ++ "_" ∉ keywords := by
      decide +kernel
    obtain ⟨hunderscore, hoverlooked, hlonger, hkeyword⟩ := hplain word hunraw
    have hbehind : A.isWord (word ++ "_").toList = true := by
      rw [String.toList_append]
      exact A.isWord_append hword (by simp [Alphabet.continues, Alphabet.starts])
    rw [if_pos hunraw, A.isIdentifier_of_isWord hbehind]
    exact ⟨fun _ => ⟨hunderscore, hoverlooked⟩, fun _ => ⟨hlonger, hkeyword⟩⟩
  · rw [if_neg hunraw]
    by_cases hreserved : word ∈ reservedWords
    · have hraw : ∀ listed ∈ reservedWords, listed ≠ "_" ∧ listed ∉ overlookedWords ∧
          listed ∉ neverRaw := by
        decide +kernel
      obtain ⟨hunderscore, hoverlooked, hnever⟩ := hraw word hreserved
      rw [if_pos hreserved, A.isIdentifier_raw]
      exact ⟨fun _ => ⟨hunderscore, hoverlooked⟩, fun _ => ⟨hword, hunderscore, hnever⟩⟩
    · have hkeywords : ∀ listed ∈ keywords,
          listed ∈ unrawWords ∨ listed ∈ reservedWords ∨ listed = "Self" ∨
          listed ∈ overlookedWords := by
        decide +kernel
      rw [if_neg hreserved, A.isIdentifier_of_isWord hword]
      refine and_congr_right fun _ => not_congr ⟨fun hkeyword => ?_, fun hoverlooked => ?_⟩
      · rcases hkeywords word hkeyword with hin | hin | hin | hin
        · exact absurd hin hunraw
        · exact absurd hin hreserved
        · exact absurd hin hcapital
        · exact hin
      · exact List.mem_append_right _ (List.mem_cons_of_mem _ hoverlooked)

/-- **The name of a field** is an identifier unless the id is a lone underscore or folds to an
overlooked word. -/
theorem isIdentifier_fieldName {id name : String} (h : fieldName? id = some name) :
    A.isIdentifier name = true ↔ id ≠ "_" ∧ folded id ∉ overlookedWords := by
  obtain ⟨hid, rfl⟩ := isId_of_fieldName? h
  have hword : A.isWord (folded id).toList = true := by
    rw [folded, String.toList_ofList]
    exact A.isWord_of_isId (isId_snakeCase hid)
  rw [isIdentifier_unreserved A hword folded_ne_capital, ne_eq, folded_eq_underscore_iff]

example : fieldName? "Type" = some "r#type" ∧ ascii.isIdentifier "r#type" = true ∧
    fieldName? "Try" = some "try" ∧ ascii.isIdentifier "try" = false := by
  decide +kernel

/-! ## Structure names -/

/-- The class goes with what is put behind it: it is a word, or `r#` in front of a word or of
nothing. -/
def Alphabet.Fits (className : String) : Prop :=
  A.isWord className.toList = true ∨
    ∃ rest, className = "r#" ++ rest ∧ (rest = "" ∨ A.isWord rest.toList = true)

theorem Alphabet.Fits.ne_empty {A : Alphabet} {className : String} (h : A.Fits className) :
    className ≠ "" := by
  rintro rfl
  rcases h with hword | ⟨rest, heq, -⟩
  · cases hword
  · have hfirst := congrArg (fun name => name.toList.head?) heq
    simp at hfirst

theorem isWord_elements : A.isWord "Elements".toList = true :=
  A.isWord_of_isId (by decide)

theorem isWord_append_elements (name : String) :
    A.isWord (name ++ "Elements").toList = true ↔ name = "" ∨ A.isWord name.toList = true := by
  rw [String.toList_append, A.isWord_append_iff (isWord_elements A), String.toList_eq_nil_iff]

/-- No keyword ends in what is put behind a class. -/
theorem append_elements_not_mem (name : String) :
    name ++ "Elements" ∉ "_" :: (keywords ++ neverRaw) := by
  have hsuffix : ∀ listed ∈ "_" :: (keywords ++ neverRaw), ¬ "Elements".toList <:+
      listed.toList := by
    decide +kernel
  intro hmem
  apply hsuffix _ hmem
  rw [String.toList_append]
  exact List.suffix_append _ _

/-- What is put behind a class does not mark it. -/
theorem marked_of_strip? {className : String} {raw : List Char}
    (h : strip? ['r', '#'] (className ++ "Elements").toList = some raw) :
    ∃ rest, className = "r#" ++ rest := by
  rw [strip?_eq_some_iff, String.toList_append] at h
  cases hclass : className.toList with
  | nil =>
    rw [hclass] at h
    exact absurd (List.cons.inj h).1 (by decide)
  | cons c cs =>
    rw [hclass] at h
    obtain ⟨hc, hmore⟩ := List.cons.inj h
    cases cs with
    | nil => exact absurd (List.cons.inj hmore).1 (by decide)
    | cons d cs =>
      have hd : d = '#' := (List.cons.inj hmore).1
      refine ⟨String.ofList cs, ?_⟩
      apply String.toList_injective
      rw [hclass, hc, hd, String.toList_append, String.toList_ofList, String.toList_ofList]
      rfl

/-- **The name of the structure** is an identifier if and only if the class goes with it. -/
theorem isIdentifier_append_elements {className : String} (hne : className ≠ "") :
    A.isIdentifier (className ++ "Elements") = true ↔ A.Fits className := by
  by_cases hmarked : ∃ rest, className = "r#" ++ rest
  · obtain ⟨rest, rfl⟩ := hmarked
    have hfree := append_elements_not_mem rest
    rw [List.mem_cons, List.mem_append, not_or, not_or] at hfree
    obtain ⟨hunderscore, -, hnever⟩ := hfree
    rw [String.append_assoc, A.isIdentifier_raw, isWord_append_elements]
    constructor
    · rintro ⟨hrest, -⟩
      exact Or.inr ⟨rest, rfl, hrest⟩
    · rintro (hword | ⟨other, heq, hrest⟩)
      · exact absurd hword (A.not_isWord_of_mem (by decide) (by decide) (c := '#') (by simp))
      · have hsame : rest = other := by simpa using heq
        rw [hsame] at hunderscore hnever ⊢
        exact ⟨hrest, hunderscore, hnever⟩
  · have hfree := append_elements_not_mem className
    rw [List.mem_cons, List.mem_append, not_or, not_or] at hfree
    obtain ⟨hunderscore, hkeyword, -⟩ := hfree
    have hstrip : strip? ['r', '#'] (className ++ "Elements").toList = none := by
      rw [Option.eq_none_iff_forall_ne_some]
      exact fun raw hraw => hmarked (marked_of_strip? hraw)
    have hplain : A.isIdentifier (className ++ "Elements") =
        A.isWord (className ++ "Elements").toList := by
      unfold Alphabet.isIdentifier
      rw [hstrip]
      simp [hunderscore, hkeyword]
    rw [hplain, isWord_append_elements]
    constructor
    · rintro (hempty | hword)
      · exact absurd hempty hne
      · exact Or.inl hword
    · rintro (hword | ⟨rest, heq, -⟩)
      · exact Or.inr hword
      · exact absurd ⟨rest, heq⟩ hmarked

end Fields

/-! ## Generated source text -/

/-- Source text is written for the accessors of a document only. -/
theorem generate_eq_ok {text source : String} (h : (generate text).1 = .ok source)
    (hne : source ≠ "") :
    ∃ set, (scan text).1 = .ok (some set) ∧ source = set.source := by
  unfold generate at h
  rcases hscan : scan text with ⟨error | _ | set, notes⟩
  · rw [hscan] at h
    cases h
  · rw [hscan] at h
    cases h
    exact absurd rfl hne
  · rw [hscan] at h
    cases h
    exact ⟨set, rfl, rfl⟩

theorem generate_of_scan {text : String} {set : AccessorSet} (h : (scan text).1 = .ok (some set)) :
    (generate text).1 = .ok set.source := by
  unfold generate
  rcases hscan : scan text with ⟨result, notes⟩
  rw [hscan] at h
  cases h
  rfl

theorem source_ne_empty (set : AccessorSet) : set.source ≠ "" := by
  intro h
  have hlist : (String.join (set.lines.map (· ++ "\n"))).toList = [] := by
    rw [← AccessorSet.source, h]
    rfl
  simp [AccessorSet.lines] at hlist

/-- **Which names are identifiers.** If source text is generated for a document, it is that of the
document's accessors. In any alphabet, the name of the structure is an identifier behind a class
that is not empty if and only if the class is a word or marks one, and the name of a field is an
identifier if and only if the field's id is more than an underscore and does not fold to a keyword
that is overlooked. -/
theorem generated_names_iff {text source : String} (A : Alphabet)
    (h : (generate text).1 = .ok source) (hne : source ≠ "") :
    ∃ set, (scan text).1 = .ok (some set) ∧ source = set.source ∧
      (A.isIdentifier set.structName = true ∧ set.className ≠ "" ↔ A.Fits set.className) ∧
      ∀ field ∈ set.fields,
        (A.isIdentifier field.name = true ↔ field.id ≠ "_" ∧
          folded field.id ∉ overlookedWords) := by
  obtain ⟨set, hscan, hsource⟩ := generate_eq_ok h hne
  obtain ⟨root, rest, className, -, -, hclass⟩ :=
    scanFeed_eq_ok (Position.ofOffset? text.toList) hscan
  refine ⟨set, hscan, hsource, ?_, fun field hfield => ?_⟩
  · constructor
    · rintro ⟨hname, hclassName⟩
      exact (isIdentifier_append_elements A hclassName).1 hname
    · intro hfits
      exact ⟨(isIdentifier_append_elements A hfits.ne_empty).2 hfits, hfits.ne_empty⟩
  · exact isIdentifier_fieldName A (names_of_scanClass _ hclass field hfield).2

/-! ## Names that are none -/

/-- A page of the given class with two elements that have ids. -/
def namedText (className first second : String) : String :=
  "<StackLayout xmlns:x='http://schemas.microsoft.com/winfx/2006/xaml' x:Class='" ++ className ++
    "'><Label Id='" ++
    first ++ "'/><Entry Id='" ++ second ++ "'/></StackLayout>"

/-- The nodes of such a page, found at the given offsets. -/
def namedFeed (className first second : String) (label entry behind finish : Nat) : NodeFeed :=
  .node ⟨0, 0⟩
    (.element ⟨⟨"StackLayout", "StackLayout", ""⟩,
      [⟨⟨"xmlns:x", "x", declarationNamespace⟩, metadataNamespace⟩,
        ⟨⟨"x:Class", "Class", metadataNamespace⟩, className⟩], false⟩) <|
  .node ⟨label, 0⟩ (.element ⟨⟨"Label", "Label", ""⟩, [⟨⟨"Id", "Id", ""⟩, first⟩], true⟩) <|
  .node ⟨entry, 0⟩ (.element ⟨⟨"Entry", "Entry", ""⟩, [⟨⟨"Id", "Id", ""⟩, second⟩], true⟩) <|
  .node ⟨behind, 0⟩ (.endElement "StackLayout") <|
  .finished ⟨finish, 0⟩

theorem namedText_feed :
    NodeFeed.ofText (namedText "A.Page" "NameEntry" "Type").toList =
        namedFeed "A.Page" "NameEntry" "Type" 85 108 126 140 ∧
      NodeFeed.ofText (namedText "A.my-page" "Try" "_").toList =
        namedFeed "A.my-page" "Try" "_" 88 105 120 134 ∧
      NodeFeed.ofText (namedText "A." "a" "b").toList = namedFeed "A." "a" "b" 81 96 111 125 := by
  refine ⟨?_, ?_, ?_⟩
  all_goals
    unfold namedText
    iterate 6 rw [String.toList_append]
    iterate 7 rw [String.toList_ofList]
    rw [NodeFeed.ofText_eq]
    decide +kernel

/-- The accessors of such a page. -/
def namedSet (className first firstName second secondName : String) : AccessorSet :=
  ⟨some "A", className, [⟨first, firstName, "::kiln_model::forms::Label"⟩,
    ⟨second, secondName, "::kiln_model::forms::Entry"⟩]⟩

theorem scan_namedText :
    (scan (namedText "A.Page" "NameEntry" "Type")).1 =
        .ok (some (namedSet "Page" "NameEntry" "name_entry" "Type" "r#type")) ∧
      (scan (namedText "A.my-page" "Try" "_")).1 =
        .ok (some (namedSet "my-page" "Try" "try" "_" "_")) ∧
      (scan (namedText "A." "a" "b")).1 = .ok (some (namedSet "" "a" "a" "b" "b")) := by
  obtain ⟨hlegal, hillegal, hempty⟩ := namedText_feed
  rw [scan_of_feed hlegal, scan_of_feed hillegal, scan_of_feed hempty]
  exact ⟨rfl, rfl, rfl⟩

/-- Of a class that is a word and ids that fold to none of the overlooked words, all names are
identifiers. -/
theorem generated_names_iff_namedText :
    (generate (namedText "A.Page" "NameEntry" "Type")).1 =
        .ok (namedSet "Page" "NameEntry" "name_entry" "Type" "r#type").source ∧
      (namedSet "Page" "NameEntry" "name_entry" "Type" "r#type").source ≠ "" ∧
      ∀ A : Alphabet, A.isIdentifier "PageElements" = true ∧ A.isIdentifier "name_entry" = true ∧
        A.isIdentifier "r#type" = true := by
  have hgenerate := generate_of_scan scan_namedText.1
  have hne := source_ne_empty (namedSet "Page" "NameEntry" "name_entry" "Type" "r#type")
  refine ⟨hgenerate, hne, fun A => ?_⟩
  obtain ⟨set, hscan, -, hclass, hfields⟩ := generated_names_iff A hgenerate hne
  rw [scan_namedText.1] at hscan
  cases hscan
  have hword : A.isWord "Page".toList = true := A.isWord_of_isId (by decide)
  refine ⟨(hclass.2 (Or.inl hword)).1, ?_, ?_⟩
  · exact (hfields _ List.mem_cons_self).2 ⟨by decide, by decide +kernel⟩
  · exact (hfields _ (List.mem_cons_of_mem _ List.mem_cons_self)).2 ⟨by decide, by decide +kernel⟩

/-- A keyword that is overlooked, a lone underscore, a class with a hyphen, and an empty class all
come through. -/
theorem not_every_name_legal :
    ((generate (namedText "A.my-page" "Try" "_")).1 =
      .ok (namedSet "my-page" "Try" "try" "_" "_").source ∧
        (namedSet "my-page" "Try" "try" "_" "_").source ≠ "" ∧
        ∀ A : Alphabet, ¬ A.isIdentifier "my-pageElements" = true ∧ ¬ A.isIdentifier "try" = true ∧
          ¬ A.isIdentifier "_" = true) ∧
      (generate (namedText "A." "a" "b")).1 = .ok (namedSet "" "a" "a" "b" "b").source ∧
        (namedSet "" "a" "a" "b" "b").source ≠ "" ∧
        (namedSet "" "a" "a" "b" "b").className = "" := by
  refine ⟨⟨generate_of_scan scan_namedText.2.1, source_ne_empty _, fun A => ⟨?_, ?_, ?_⟩⟩,
    generate_of_scan scan_namedText.2.2, source_ne_empty _, rfl⟩
  · have hhyphen : ¬ A.isWord "my-page".toList = true :=
      A.not_isWord_of_mem (by decide) (by decide) (c := '-') (by decide)
    show ¬ A.isIdentifier ("my-page" ++ "Elements") = true
    rw [isIdentifier_append_elements A (by decide)]
    rintro (hword | ⟨rest, hmarked, -⟩)
    · exact hhyphen hword
    · have hfirst := congrArg (fun name => name.toList.head?) hmarked
      simp at hfirst
  · have hname : fieldName? "Try" = some "try" := by decide +kernel
    rw [isIdentifier_fieldName A hname]
    exact fun h => h.2 (by decide +kernel)
  · have hname : fieldName? "_" = some "_" := by decide +kernel
    rw [isIdentifier_fieldName A hname]
    exact fun h => h.1 rfl

end MarkupForms.Accessors
