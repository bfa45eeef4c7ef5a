import Mathlib.Data.List.Chain
import Mathlib.Tactic.ByContra
import MarkupForms.Expression.Token

/-!
# How a text is laid out in tokens

Between tokens there may be blanks, and two words need one between them; a word goes on as long as
word characters follow. `Layout` says this of a text and its tokens without reading the text. The
tokens that are read from a text are the ones that it is a layout of (`tokens_eq_ok_iff`), so no
text is a layout of two token lists. In the other direction any tokens can be written with any gaps
(`layout_layOut`).
-/

namespace MarkupForms.Expression

open Text

/-! ## Classes of characters -/

/-- The characters that are blank, by code point. -/
def blankPoints : List Nat :=
  [0x09, 0x0a, 0x0b, 0x0c, 0x0d, 0x20, 0x85, 0xa0, 0x1680, 0x2000, 0x2001, 0x2002, 0x2003, 0x2004,
    0x2005, 0x2006, 0x2007, 0x2008, 0x2009, 0x200a, 0x2028, 0x2029, 0x202f, 0x205f, 0x3000]

theorem mem_blankPoints {c : Char} (h : isBlank c = true) : c.toNat ∈ blankPoints := by
  simp only [isBlank, Bool.or_eq_true, Bool.and_eq_true, decide_eq_true_eq, beq_iff_eq] at h
  simp only [blankPoints, List.mem_cons, List.not_mem_nil, or_false]
  omega

theorem not_alphanumeric_of_blankPoint :
    ∀ n ∈ blankPoints, inRanges alphanumericRanges n = false := by
  decide +kernel

/-- No blank belongs to a word. -/
theorem isWordChar_of_isBlank {c : Char} (h : isBlank c = true) : isWordChar c = false := by
  have hpoint := mem_blankPoints h
  have halpha : isAlphanumeric c = false := not_alphanumeric_of_blankPoint _ hpoint
  have hunder : c ≠ '_' := by
    rintro rfl
    exact absurd hpoint (by decide)
  simp [isWordChar, halpha, hunder]

/-- No punctuation mark belongs to a word or is blank. -/
theorem classes_of_punctuation? {c : Char} {mark : Token} (h : punctuation? c = some mark) :
    isWordChar c = false ∧ isBlank c = false := by
  have hchar : c = '=' ∨ c = ',' ∨ c = '{' ∨ c = '}' := by
    unfold punctuation? at h
    by_contra hother
    simp only [not_or] at hother
    simp [hother] at h
  rcases hchar with rfl | rfl | rfl | rfl <;> decide +kernel

/-! ## Layouts -/

/-- A word: at least one character, and word characters only. -/
structure IsWord (w : List Char) : Prop where
  nonempty : w ≠ []
  chars : ∀ c ∈ w, isWordChar c = true

/-- The text does not go on with a word character. -/
def EndsWord (cs : List Char) : Prop :=
  ∀ c ∈ cs.head?, isWordChar c = false

/-- The text is a layout of the tokens: words that end where no word character follows, punctuation
marks, and blanks anywhere between them. -/
inductive Layout : List Char → List Token → Prop where
  | done : Layout [] []
  | blank {c : Char} {cs : List Char} {ts : List Token} (hc : isBlank c = true) (h : Layout cs ts) :
      Layout (c :: cs) ts
  | mark {c : Char} {mark : Token} {cs : List Char} {ts : List Token}
      (hc : punctuation? c = some mark) (h : Layout cs ts) : Layout (c :: cs) (mark :: ts)
  | word {w cs : List Char} {ts : List Token} (hw : IsWord w) (hend : EndsWord cs)
      (h : Layout cs ts) :
      Layout (w ++ cs) (.ident (String.ofList w) :: ts)

/-! ## What is read is a layout -/

theorem map_eq_ok {ε α β : Type} {f : α → β} {result : Except ε α} {value : β}
    (h : result.map f = .ok value) : ∃ found, result = .ok found ∧ f found = value := by
  cases result with
  | error fault => cases h
  | ok found =>
    simp only [Except.map, Except.ok.injEq] at h
    exact ⟨found, rfl, h⟩

/-- The characters of a word that was read up to here, and then a layout. -/
theorem Layout.closeWord {word cs : List Char} {ts : List Token}
    (hword : ∀ c ∈ word, isWordChar c = true) (hend : EndsWord cs) (h : Layout cs ts) :
    Layout (word.reverse ++ cs) (Expression.closeWord word ts) := by
  cases word with
  | nil => exact h
  | cons c word =>
    have hw : IsWord (c :: word).reverse := by
      constructor
      · simp
      · intro other hother
        exact hword other (List.mem_reverse.1 hother)
    exact Layout.word hw hend h

/-- Reading finds a layout, wherever it stands in a word. -/
theorem layout_of_tokensFrom {word cs : List Char} {ts : List Token}
    (hword : ∀ c ∈ word, isWordChar c = true) (h : tokensFrom word cs = .ok ts) :
    Layout (word.reverse ++ cs) ts := by
  induction cs generalizing word ts with
  | nil =>
    simp only [tokensFrom, Except.ok.injEq] at h
    subst h
    have hend : EndsWord [] := by
      intro c hc
      cases hc
    exact Layout.closeWord hword hend .done
  | cons c cs ih =>
    rw [tokensFrom] at h
    have hnone : ∀ other ∈ ([] : List Char), isWordChar other = true := by
      intro other hother
      cases hother
    split at h
    · next hc =>
      -- one more character of the word
      have hmore : ∀ other ∈ c :: word, isWordChar other = true := by
        intro other hother
        rcases List.mem_cons.1 hother with rfl | hother
        · exact hc
        · exact hword other hother
      have hlayout := ih hmore h
      rw [List.reverse_cons, List.append_assoc] at hlayout
      exact hlayout
    · next hc =>
      have hend : EndsWord (c :: cs) := by
        intro other hother
        simp only [List.head?_cons, Option.mem_some_iff] at hother
        subst hother
        simpa using hc
      split at h
      · next hblank =>
        obtain ⟨rest, hrest, rfl⟩ := map_eq_ok h
        have hlayout : Layout cs rest := ih hnone hrest
        exact Layout.closeWord hword hend (.blank hblank hlayout)
      · split at h
        · next mark hmark =>
          obtain ⟨rest, hrest, rfl⟩ := map_eq_ok h
          have hlayout : Layout cs rest := ih hnone hrest
          exact Layout.closeWord hword hend (.mark hmark hlayout)
        · cases h

/-! ## A layout is read -/

theorem tokensFrom_word {w : List Char} (hw : ∀ c ∈ w, isWordChar c = true) (word cs : List Char) :
    tokensFrom word (w ++ cs) = tokensFrom (w.reverse ++ word) cs := by
  induction w generalizing word with
  | nil => rfl
  | cons c w ih =>
    have hc : isWordChar c = true := hw c List.mem_cons_self
    have hrest : ∀ other ∈ w, isWordChar other = true :=
      fun other h => hw other (List.mem_cons_of_mem _ h)
    rw [List.cons_append, tokensFrom, if_pos hc, ih hrest, List.reverse_cons, List.append_assoc]
    rfl

/-- Where a word ends, reading starts afresh. -/
theorem tokensFrom_of_endsWord {cs : List Char} (hend : EndsWord cs) (word : List Char) :
    tokensFrom word cs = (tokensFrom [] cs).map (closeWord word) := by
  cases cs with
  | nil => rfl
  | cons c cs =>
    have hc : isWordChar c = false := hend c rfl
    have hempty : closeWord [] = id := rfl
    simp only [tokensFrom, hc, Bool.false_eq_true, if_false]
    split
    · simp [hempty, Except.map_id]
    · split
      · cases tokensFrom [] cs <;> rfl
      · rfl

theorem tokens_of_layout {cs : List Char} {ts : List Token} (h : Layout cs ts) :
    tokens cs = .ok ts := by
  unfold tokens
  induction h with
  | done => rfl
  | @blank c cs ts hc _ ih =>
    have hword : isWordChar c = false := isWordChar_of_isBlank hc
    rw [tokensFrom, if_neg (by simp [hword]), if_pos hc, ih]
    rfl
  | @mark c mark cs ts hc _ ih =>
    obtain ⟨hword, hblank⟩ := classes_of_punctuation? hc
    rw [tokensFrom, if_neg (by simp [hword]), if_neg (by simp [hblank]), hc, ih]
    rfl
  | @word w cs ts hw hend _ ih =>
    rw [tokensFrom_word hw.chars, List.append_nil, tokensFrom_of_endsWord hend, ih]
    have hne : w.reverse.isEmpty = false := by simp [hw.nonempty]
    simp [Except.map, closeWord, hne]

/-- **The tokens of a text are those that the text is a layout of.** -/
theorem tokens_eq_ok_iff {cs : List Char} {ts : List Token} : tokens cs = .ok ts ↔
    Layout cs ts := by
  constructor
  · intro h
    have hnone : ∀ c ∈ ([] : List Char), isWordChar c = true := by
      intro c hc
      cases hc
    exact layout_of_tokensFrom hnone h
  · exact tokens_of_layout

/-! ## Writing tokens -/

/-- The characters of a token. -/
def Token.chars : Token → List Char
  | .ident name => name.toList
  | .eq => ['=']
  | .comma => [',']
  | .lbrace => ['{']
  | .rbrace => ['}']

/-- Whether a token is a word. -/
def Token.isIdent : Token → Bool
  | .ident _ => true
  | _ => false

/-- A token that can be written: a punctuation mark, or a name that is a word. -/
def Token.Writable : Token → Prop
  | .ident name => IsWord name.toList
  | _ => True

/-- Tokens, each behind a gap, and a last gap behind them all. -/
def layOut : List (List Char × Token) → List Char → List Char
  | [], last => last
  | (gap, token) :: rest, last => gap ++ (token.chars ++ layOut rest last)

/-- A gap: blanks only. -/
def IsGap (gap : List Char) : Prop :=
  ∀ c ∈ gap, isBlank c = true

instance (gap : List Char) : Decidable (IsGap gap) :=
  List.decidableBAll (fun c => isBlank c = true) gap

/-- Two words have to be kept apart. -/
def Apart (first second : List Char × Token) : Prop :=
  first.2.isIdent = true → second.2.isIdent = true → second.1 ≠ []

instance : DecidableRel Apart := fun first second =>
  inferInstanceAs (Decidable (first.2.isIdent = true → second.2.isIdent = true → second.1 ≠ []))

theorem Layout.gap {gap cs : List Char} {ts : List Token} (hgap : IsGap gap) (h : Layout cs ts) :
    Layout (gap ++ cs) ts := by
  induction gap with
  | nil => exact h
  | cons c gap ih =>
    have hrest : IsGap gap := fun other hother => hgap other (List.mem_cons_of_mem _ hother)
    exact .blank (hgap c List.mem_cons_self) (ih hrest)

theorem endsWord_of_gap {gap cs : List Char} (hgap : IsGap gap) (hcs : gap = [] → EndsWord cs) :
    EndsWord (gap ++ cs) := by
  cases gap with
  | nil => exact hcs rfl
  | cons c gap =>
    intro other hother
    simp only [List.cons_append, List.head?_cons, Option.mem_some_iff] at hother
    subst hother
    exact isWordChar_of_isBlank (hgap c List.mem_cons_self)

/-- Behind a word, what is laid out next does not prolong it. -/
theorem endsWord_layOut {pairs : List (List Char × Token)} {last : List Char}
    (hgaps : ∀ pair ∈ pairs, IsGap pair.1) (hlast : IsGap last)
    (hapart : ∀ pair ∈ pairs.head?, pair.2.isIdent = true → pair.1 ≠ []) :
    EndsWord (layOut pairs last) := by
  cases pairs with
  | nil =>
    rw [layOut, ← List.append_nil last]
    apply endsWord_of_gap hlast
    intro _ c hc
    cases hc
  | cons pair rest =>
    obtain ⟨gap, token⟩ := pair
    have hgap : IsGap gap := hgaps (gap, token) List.mem_cons_self
    refine endsWord_of_gap hgap ?_
    intro hempty
    cases token with
    | ident name => exact absurd hempty (hapart (gap, .ident name) rfl rfl)
    | eq | comma | lbrace | rbrace =>
      intro c hc
      simp only [Token.chars, List.cons_append, List.head?_cons, Option.mem_some_iff] at hc
      subst hc
      exact (classes_of_punctuation? rfl).1

/-- **Tokens with gaps between them are a layout of the tokens**, whatever the gaps, as long as two
words have one between them. -/
theorem layout_layOut {pairs : List (List Char × Token)} {last : List Char}
    (hwritable : ∀ pair ∈ pairs, pair.2.Writable) (hgaps : ∀ pair ∈ pairs, IsGap pair.1)
    (hlast : IsGap last) (hapart : pairs.IsChain Apart) :
    Layout (layOut pairs last) (pairs.map Prod.snd) := by
  induction pairs with
  | nil =>
    have hlayout := Layout.gap hlast .done
    rwa [List.append_nil] at hlayout
  | cons pair rest ih =>
    obtain ⟨gap, token⟩ := pair
    rw [List.isChain_cons] at hapart
    have hrest : Layout (layOut rest last) (rest.map Prod.snd) := by
      apply ih
      · exact fun pair hpair => hwritable pair (List.mem_cons_of_mem _ hpair)
      · exact fun pair hpair => hgaps pair (List.mem_cons_of_mem _ hpair)
      · exact hapart.2
    refine Layout.gap (hgaps (gap, token) List.mem_cons_self) ?_
    cases token with
    | ident name =>
      have hword : IsWord name.toList := hwritable (gap, .ident name) List.mem_cons_self
      have hend : EndsWord (layOut rest last) := by
        apply endsWord_layOut
        · exact fun pair hpair => hgaps pair (List.mem_cons_of_mem _ hpair)
        · exact hlast
        · exact fun pair hpair hident => hapart.1 pair hpair rfl hident
      have hlayout := Layout.word hword hend hrest
      rwa [String.ofList_toList] at hlayout
    | eq => exact .mark rfl hrest
    | comma => exact .mark rfl hrest
    | lbrace => exact .mark rfl hrest
    | rbrace => exact .mark rfl hrest

end MarkupForms.Expression
