import MarkupForms.Expression.Basic
import MarkupForms.Hydration.Assignment
import MarkupForms.Proofs.Expression.Layout
import MarkupForms.Proofs.Text.Padding

/-!
# The grammar of binding expressions

A binding expression is the word `Binding`, perhaps `Path` and an equals sign, a path, and clauses,
each of which starts with a comma; around it stand one pair of braces and any blanks. `Written` says
so of a text and its expression. The parser accepts exactly what is written that way, refuses
everything else with the text in its complaint, and reads back every expression from each of its
written forms (`parse_iff_written`).
-/

namespace MarkupForms.Expression

open Text

/-! ## Clauses -/

/-- A clause behind the path. -/
inductive Clause where
  | converter (key : String)
  | mode (mode : BindingMode)
  deriving Repr, DecidableEq

namespace Clause

/-- The tokens of a clause, from its comma on. -/
def tokens : Clause → List Token
  | .converter key =>
    [.comma, .ident "Converter", .eq, .lbrace, .ident "StaticResource", .ident key, .rbrace]
  | .mode written => [.comma, .ident "Mode", .eq, .ident written.name]

/-- The key of a converter clause. -/
def key? : Clause → Option String
  | .converter key => some key
  | .mode _ => none

/-- The mode of a mode clause. -/
def mode? : Clause → Option BindingMode
  | .converter _ => none
  | .mode written => some written

end Clause

namespace BindingExpr

/-- The keys of an expression with more clauses behind it. -/
def keys (e : BindingExpr) (clauses : List Clause) : List String :=
  e.converter.toList ++ clauses.filterMap Clause.key?

/-- The modes of an expression with more clauses behind it. -/
def modes (e : BindingExpr) (clauses : List Clause) : List BindingMode :=
  e.mode.toList ++ clauses.filterMap Clause.mode?

/-- The clauses can be added: neither form occurs twice. -/
structure Takes (e : BindingExpr) (clauses : List Clause) : Prop where
  keys : (e.keys clauses).length ≤ 1
  modes : (e.modes clauses).length ≤ 1

/-- The expression with the clauses added. -/
def adding (e : BindingExpr) (clauses : List Clause) : BindingExpr :=
  ⟨e.path, (e.keys clauses).head?, (e.modes clauses).head?⟩

/-- The expression that is a path. -/
def ofPath (path : String) : BindingExpr :=
  ⟨path, none, none⟩

/-- The clauses of an expression. -/
def clauses (e : BindingExpr) : List Clause :=
  (e.converter.map Clause.converter).toList ++ (e.mode.map Clause.mode).toList

theorem adding_nil (e : BindingExpr) : e.adding [] = e := by
  obtain ⟨path, converter, mode⟩ := e
  cases converter <;> cases mode <;> rfl

theorem takes_nil (e : BindingExpr) : e.Takes [] := by
  constructor
  · simp only [BindingExpr.keys, List.filterMap_nil, List.append_nil]
    cases e.converter <;> simp
  · simp only [BindingExpr.modes, List.filterMap_nil, List.append_nil]
    cases e.mode <;> simp

/-- A converter clause first is a converter of the expression. -/
theorem adding_converter {e : BindingExpr} (h : e.converter = none) (key : String)
    (clauses : List Clause) :
    (e.Takes (.converter key :: clauses) ↔ Takes { e with converter := some key } clauses) ∧
      e.adding (.converter key :: clauses) = adding { e with converter := some key } clauses := by
  have hkeys : e.keys (.converter key :: clauses) =
      keys { e with converter := some key } clauses := by
    simp [keys, h, Clause.key?]
  have hmodes : e.modes (.converter key :: clauses) =
      modes { e with converter := some key } clauses := by
    simp [modes, List.filterMap_cons, Clause.mode?]
  constructor
  · constructor
    · intro htakes
      exact ⟨hkeys ▸ htakes.keys, hmodes ▸ htakes.modes⟩
    · intro htakes
      exact ⟨hkeys ▸ htakes.keys, hmodes ▸ htakes.modes⟩
  · rw [adding, hkeys, hmodes]
    rfl

/-- A mode clause first is the mode of the expression. -/
theorem adding_mode {e : BindingExpr} (h : e.mode = none) (mode : BindingMode)
    (clauses : List Clause) :
    (e.Takes (.mode mode :: clauses) ↔ Takes { e with mode := some mode } clauses) ∧
      e.adding (.mode mode :: clauses) = adding { e with mode := some mode } clauses := by
  have hkeys : e.keys (.mode mode :: clauses) = keys { e with mode := some mode } clauses := by
    simp [keys, List.filterMap_cons, Clause.key?]
  have hmodes : e.modes (.mode mode :: clauses) = modes { e with mode := some mode } clauses := by
    simp [modes, h, Clause.mode?]
  constructor
  · constructor
    · intro htakes
      exact ⟨hkeys ▸ htakes.keys, hmodes ▸ htakes.modes⟩
    · intro htakes
      exact ⟨hkeys ▸ htakes.keys, hmodes ▸ htakes.modes⟩
  · rw [adding, hkeys, hmodes]
    rfl

theorem Takes.converter_eq_none {e : BindingExpr} {key : String} {clauses : List Clause}
    (h : e.Takes (.converter key :: clauses)) : e.converter = none := by
  have hkeys := h.keys
  cases hconverter : e.converter with
  | none => rfl
  | some attached =>
    simp only [BindingExpr.keys, hconverter, Option.toList_some, List.filterMap_cons, Clause.key?,
      List.length_append, List.length_cons, List.length_nil] at hkeys
    omega

theorem Takes.mode_eq_none {e : BindingExpr} {mode : BindingMode} {clauses : List Clause}
    (h : e.Takes (.mode mode :: clauses)) : e.mode = none := by
  have hmodes := h.modes
  cases hmode : e.mode with
  | none => rfl
  | some written =>
    simp only [BindingExpr.modes, hmode, Option.toList_some, List.filterMap_cons, Clause.mode?,
      List.length_append, List.length_cons, List.length_nil] at hmodes
    omega

end BindingExpr

theorem name_of_ofName? {name : String} {mode : BindingMode}
    (h : BindingMode.ofName? name = some mode) :
    name = mode.name := by
  have hfound := List.find?_some h
  exact (eq_of_beq hfound).symm

/-- What is read as clauses is written as clauses. -/
theorem clauses_of_withClauses {expr e : BindingExpr} {ts : List Token}
    (h : withClauses expr ts = .ok e) :
    ∃ clauses, ts = clauses.flatMap Clause.tokens ∧ expr.Takes clauses ∧
    e = expr.adding clauses := by
  -- one case for each way through one round; only two of them go on to another round
  fun_induction withClauses expr ts with
  | case1 expr =>
    cases h
    exact ⟨[], rfl, BindingExpr.takes_nil _, (BindingExpr.adding_nil _).symm⟩
  | case2 expr name hname key more ih =>
    obtain ⟨rfl, hnone⟩ := hname
    obtain ⟨clauses, rfl, htakes, rfl⟩ := ih h
    obtain ⟨htakes', hadding⟩ := BindingExpr.adding_converter hnone key clauses
    exact ⟨.converter key :: clauses, rfl, htakes'.2 htakes, hadding.symm⟩
  | case4 expr name _ hname modeName more mode hmode ih =>
    obtain ⟨rfl, hnone⟩ := hname
    obtain ⟨clauses, rfl, htakes, rfl⟩ := ih h
    obtain ⟨htakes', hadding⟩ := BindingExpr.adding_mode hnone mode clauses
    refine ⟨.mode mode :: clauses, ?_, htakes'.2 htakes, hadding.symm⟩
    rw [name_of_ofName? hmode]
    rfl
  | case3 => cases h
  | case5 => cases h
  | case6 => cases h
  | case7 => cases h
  | case8 => cases h
  | case9 => cases h

/-- What is written as clauses is read as clauses. -/
theorem withClauses_of_clauses {clauses : List Clause} {expr : BindingExpr}
    (h : expr.Takes clauses) :
    withClauses expr (clauses.flatMap Clause.tokens) = .ok (expr.adding clauses) := by
  induction clauses generalizing expr with
  | nil => rw [expr.adding_nil]; rfl
  | cons clause clauses ih =>
    cases clause with
    | converter key =>
      have hnone := h.converter_eq_none
      obtain ⟨htakes, hadding⟩ := BindingExpr.adding_converter hnone key clauses
      have hrest := ih (htakes.1 h)
      rw [hadding, ← hrest]
      simp [Clause.tokens, withClauses, hnone]
    | mode mode =>
      have hnone := h.mode_eq_none
      obtain ⟨htakes, hadding⟩ := BindingExpr.adding_mode hnone mode clauses
      have hrest := ih (htakes.1 h)
      rw [hadding, ← hrest]
      simp [Clause.tokens, withClauses, hnone]

/-! ## Expressions -/

/-- The tokens up to the path. -/
def opening (named : Bool) (path : String) : List Token :=
  .ident "Binding" :: (if named then [.ident "Path", .eq, .ident path] else [.ident path])

/-- The tokens spell the expression: a path, with or without `Path=` before it, and clauses, of each
form at most one, from which the rest of the expression is taken. -/
def Spells (ts : List Token) (e : BindingExpr) : Prop :=
  ∃ named path clauses, ts = opening named path ++ clauses.flatMap Clause.tokens ∧
    (BindingExpr.ofPath path).Takes clauses ∧ e = (BindingExpr.ofPath path).adding clauses

theorem spells_of_withPath {e : BindingExpr} {ts : List Token} (h : withPath ts = .ok e) :
    ∃ path clauses, ts = .ident path :: clauses.flatMap Clause.tokens ∧
      (BindingExpr.ofPath path).Takes clauses ∧ e = (BindingExpr.ofPath path).adding clauses := by
  unfold withPath at h
  split at h
  · next path rest =>
    obtain ⟨clauses, rfl, htakes, rfl⟩ := clauses_of_withClauses h
    exact ⟨path, clauses, rfl, htakes, rfl⟩
  · cases h
  · cases h

theorem withPath_cons {path : String} {clauses : List Clause}
    (h : (BindingExpr.ofPath path).Takes clauses) :
    withPath (.ident path :: clauses.flatMap Clause.tokens) =
      .ok ((BindingExpr.ofPath path).adding clauses) :=
  withClauses_of_clauses h

/-- Clauses start with a comma. -/
theorem head?_clauses {clauses : List Clause} {token : Token}
    (h : token ∈ (clauses.flatMap Clause.tokens).head?) : token = .comma := by
  cases clauses with
  | nil => cases h
  | cons clause clauses =>
    cases clause <;>
    · simp only [List.flatMap_cons, Clause.tokens, List.cons_append, List.head?_cons,
        Option.mem_some_iff] at h
      exact h.symm

/-- **The expression that tokens are read as is the one that they spell.** -/
theorem ofTokens_eq_ok_iff {ts : List Token} {e : BindingExpr} : ofTokens ts = .ok e ↔
    Spells ts e := by
  constructor
  · intro h
    unfold ofTokens at h
    split at h
    · obtain ⟨path, clauses, rfl, htakes, rfl⟩ := spells_of_withPath h
      exact ⟨true, path, clauses, rfl, htakes, rfl⟩
    · obtain ⟨path, clauses, rfl, htakes, rfl⟩ := spells_of_withPath h
      exact ⟨false, path, clauses, rfl, htakes, rfl⟩
    · cases h
  · rintro ⟨named, path, clauses, rfl, htakes, rfl⟩
    have hpath := withPath_cons htakes
    cases named with
    | true => exact hpath
    | false =>
      show ofTokens (.ident "Binding" :: .ident path :: clauses.flatMap Clause.tokens) = _
      rw [← hpath]
      unfold ofTokens
      split
      -- a path that is called `Path` has no equals sign behind it
      · next rest hshape =>
        simp only [List.cons.injEq, true_and] at hshape
        have hcomma : Token.eq = .comma := by
          apply head?_clauses
          rw [hshape.2]
          rfl
        cases hcomma
      · next rest _ hshape =>
        simp only [List.cons.injEq, true_and] at hshape
        rw [← hshape]
      · next hother => exact absurd rfl (hother _)

/-! ## Whole texts -/

/-- The text is an expression in braces, with blanks around it. -/
def Written (text : String) (e : BindingExpr) : Prop :=
  ∃ inner ts, trim text.toList = '{' :: (inner ++ ['}']) ∧ Layout inner ts ∧ Spells ts e

theorem unbrace?_eq_some_iff {cs inner : List Char} :
    unbrace? cs = some inner ↔ cs = '{' :: (inner ++ ['}']) := by
  constructor
  · intro h
    unfold unbrace? at h
    split at h
    · next cs =>
      split at h
      · next inner' hreverse =>
        cases h
        rw [← List.reverse_reverse cs, hreverse, List.reverse_cons]
      · cases h
    · cases h
  · rintro rfl
    simp [unbrace?]

theorem parse_eq_ok_iff {text : String} {e : BindingExpr} :
    BindingExpr.parse text = .ok e ↔ Written text e := by
  unfold BindingExpr.parse
  constructor
  · intro h
    split at h
    · cases h
    · next inner hinner =>
      split at h
      · cases h
      · next ts hts =>
        exact ⟨inner, ts, unbrace?_eq_some_iff.1 hinner, tokens_eq_ok_iff.1 hts,
          ofTokens_eq_ok_iff.1 h⟩
  · rintro ⟨inner, ts, htext, hlayout, hspells⟩
    have hinner := unbrace?_eq_some_iff.2 htext
    have hts := tokens_eq_ok_iff.2 hlayout
    simp only [hinner, hts]
    exact ofTokens_eq_ok_iff.2 hspells

/-! ## Writing expressions -/

/-- The names in an expression are words. -/
structure BindingExpr.Named (e : BindingExpr) : Prop where
  path : IsWord e.path.toList
  converter : ∀ key ∈ e.converter, IsWord key.toList

/-- One way to write an expression: with or without `Path=`, the clauses in some order, and some
gaps. -/
structure Printing (e : BindingExpr) where
  named : Bool
  clauses : List Clause
  order : clauses.Perm e.clauses
  /-- The tokens, each behind its gap. -/
  pieces : List (List Char × Token)
  spelled : pieces.map Prod.snd = opening named e.path ++ clauses.flatMap Clause.tokens
  gaps : ∀ piece ∈ pieces, IsGap piece.1
  apart : pieces.IsChain Apart
  /-- The gap before the closing brace, and those around the braces. -/
  last : List Char
  before : List Char
  after : List Char
  outerGaps : IsGap last ∧ IsGap before ∧ IsGap after

/-- The text of a printing. -/
def Printing.text {e : BindingExpr} (way : Printing e) : String :=
  String.ofList (way.before ++ ('{' :: (layOut way.pieces way.last ++ ['}']) ++ way.after))

theorem eq_of_perm_toList {α : Type} {value? : Option α} {list : List α}
    (h : list.Perm value?.toList) :
    list = value?.toList := by
  cases value? with
  | none => exact List.perm_nil.1 h
  | some value => exact List.perm_singleton.1 h

/-- The clauses of an expression can be added to its path in any order, and give the expression. -/
theorem adding_clauses {e : BindingExpr} {clauses : List Clause} (h : clauses.Perm e.clauses) :
    (BindingExpr.ofPath e.path).Takes clauses ∧ (BindingExpr.ofPath e.path).adding clauses = e := by
  obtain ⟨path, converter, mode⟩ := e
  have hkeys : clauses.filterMap Clause.key? = converter.toList := by
    apply eq_of_perm_toList
    have hperm := h.filterMap Clause.key?
    cases converter <;> cases mode <;> exact hperm
  have hmodes : clauses.filterMap Clause.mode? = mode.toList := by
    apply eq_of_perm_toList
    have hperm := h.filterMap Clause.mode?
    cases converter <;> cases mode <;> exact hperm
  constructor
  · constructor
    · simp only [BindingExpr.keys, BindingExpr.ofPath, hkeys]
      cases converter <;> simp
    · simp only [BindingExpr.modes, BindingExpr.ofPath, hmodes]
      cases mode <;> simp
  · simp only [BindingExpr.adding, BindingExpr.keys, BindingExpr.modes, BindingExpr.ofPath,
      hkeys, hmodes]
    cases converter <;> cases mode <;> rfl

/-- The names of modes are words. -/
theorem isWord_name (mode : BindingMode) : IsWord mode.name.toList := by
  cases mode <;> exact ⟨by decide, List.all_eq_true.1 (by decide +kernel)⟩

theorem isWord_keywords : ∀ name ∈ ["Binding", "Path", "Converter", "StaticResource", "Mode"],
    IsWord name.toList := by
  intro name hname
  simp only [List.mem_cons, List.not_mem_nil, or_false] at hname
  rcases hname with rfl | rfl | rfl | rfl | rfl <;>
    exact ⟨by decide, List.all_eq_true.1 (by decide +kernel)⟩

/-- All tokens of an expression whose names are words can be written. -/
theorem Printing.writable {e : BindingExpr} (hnamed : e.Named) (way : Printing e) :
    ∀ piece ∈ way.pieces, piece.2.Writable := by
  intro piece hpiece
  have hkeyword : ∀ name ∈ ["Binding", "Path", "Converter", "StaticResource", "Mode"],
      (Token.ident name).Writable := isWord_keywords
  have htoken : piece.2 ∈ way.pieces.map Prod.snd := List.mem_map_of_mem hpiece
  rw [way.spelled, List.mem_append] at htoken
  rcases htoken with hopening | hclauses
  · unfold opening at hopening
    have hpath : (Token.ident e.path).Writable := hnamed.path
    rcases List.mem_cons.1 hopening with hbinding | hopening
    · rw [hbinding]
      exact hkeyword "Binding" (by simp)
    · split at hopening
      · simp only [List.mem_cons, List.not_mem_nil, or_false] at hopening
        rcases hopening with htoken | htoken | htoken <;> rw [htoken]
        · exact hkeyword "Path" (by simp)
        · trivial
        · exact hpath
      · rw [List.mem_singleton.1 hopening]
        exact hpath
  · obtain ⟨clause, hclause, htoken⟩ := List.mem_flatMap.1 hclauses
    have hown : clause ∈ e.clauses := way.order.mem_iff.1 hclause
    cases clause with
    | converter key =>
      have hkey : key ∈ e.converter := by
        obtain ⟨path, converter, mode⟩ := e
        cases converter <;> cases mode <;> simp_all [BindingExpr.clauses]
      have hword : (Token.ident key).Writable := hnamed.converter key hkey
      simp only [Clause.tokens, List.mem_cons, List.not_mem_nil, or_false] at htoken
      rcases htoken with htoken | htoken | htoken | htoken | htoken | htoken | htoken <;>
        rw [htoken]
      · trivial
      · exact hkeyword "Converter" (by simp)
      · trivial
      · trivial
      · exact hkeyword "StaticResource" (by simp)
      · exact hword
      · trivial
    | mode mode =>
      have hword : (Token.ident mode.name).Writable := isWord_name mode
      simp only [Clause.tokens, List.mem_cons, List.not_mem_nil, or_false] at htoken
      rcases htoken with htoken | htoken | htoken | htoken <;> rw [htoken]
      · trivial
      · exact hkeyword "Mode" (by simp)
      · trivial
      · exact hword

/-- Blanks around braces are trimmed, and nothing else. -/
theorem trim_braced {before after inner : List Char} (hbefore : IsGap before)
    (hafter : IsGap after) :
    trim (before ++ ('{' :: (inner ++ ['}']) ++ after)) = '{' :: (inner ++ ['}']) := by
  rw [← List.append_assoc, trim_append_of_blank hbefore hafter]
  apply trim_of_ends
  · intro c hc
    cases hc
    decide
  · intro c hc
    rw [← List.cons_append, List.getLast?_concat] at hc
    cases hc
    decide

theorem Printing.written {e : BindingExpr} (hnamed : e.Named) (way : Printing e) :
    Written way.text e := by
  obtain ⟨hlast, hbefore, hafter⟩ := way.outerGaps
  have hlayout := layout_layOut (way.writable hnamed) way.gaps hlast way.apart
  rw [way.spelled] at hlayout
  obtain ⟨htakes, hadding⟩ := adding_clauses way.order
  refine ⟨layOut way.pieces way.last, _, ?_, hlayout, way.named, e.path, way.clauses, rfl, htakes,
    hadding.symm⟩
  rw [Printing.text, String.toList_ofList]
  exact trim_braced hbefore hafter

/-- **The parser accepts its grammar and undoes printing.** A text is accepted as an expression
exactly if it is written as that expression; every other text is refused with a complaint that
carries the text; and an expression whose names are words is read back from each of its
printings. -/
theorem parse_iff_written :
    (∀ text e, BindingExpr.parse text = .ok e ↔ Written text e) ∧
      (∀ text resources, (∃ fault, Hydration.Pass.readBinding resources text =
        .error (.expression text fault)) ↔ ∀ e, ¬ Written text e) ∧
      ∀ e : BindingExpr, e.Named → ∀ way : Printing e, BindingExpr.parse way.text = .ok e := by
  refine ⟨fun text e => parse_eq_ok_iff, ?_, ?_⟩
  · intro text resources
    unfold Hydration.Pass.readBinding
    cases hparse : BindingExpr.parse text with
    | error fault =>
      constructor
      · intro _ e hwritten
        rw [parse_eq_ok_iff.2 hwritten] at hparse
        cases hparse
      · intro _
        exact ⟨fault, rfl⟩
    | ok e =>
      constructor
      · rintro ⟨fault, hfault⟩
        cases hfault
      · intro hnone
        exact absurd (parse_eq_ok_iff.1 hparse) (hnone e)
  · intro e hnamed way
    exact parse_eq_ok_iff.2 (way.written hnamed)

/-- An expression whose path and key are spelled like keywords. -/
def oddExpr : BindingExpr :=
  ⟨"Path", some "Mode", some .twoWay⟩

/-- `oddExpr` with its mode first and hardly a blank, but a line break before the closing brace. -/
def oddPrinting : Printing oddExpr where
  named := false
  clauses := [.mode .twoWay, .converter "Mode"]
  order := by decide
  pieces :=
    [([], .ident "Binding"), ([' ', '\t'], .ident "Path"), ([], .comma), ([], .ident "Mode"),
     ([], .eq),
      ([], .ident "TwoWay"), ([], .comma), ([], .ident "Converter"), ([' '], .eq), ([], .lbrace),
      ([], .ident "StaticResource"), ([' '], .ident "Mode"), ([], .rbrace)]
  spelled := rfl
  gaps := by decide +kernel
  apart := by decide +kernel
  last := ['\n']
  before := [' ']
  after := []
  outerGaps := by decide +kernel

/-- Read back, although `Path` and `Mode` stand where names are expected. -/
theorem parse_oddPrinting :
    oddExpr.Named ∧
      BindingExpr.parse
        " \x7bBinding \tPath,Mode=TwoWay,Converter =\x7bStaticResource Mode\x7d\n\x7d" =
          .ok oddExpr := by
  have hnamed : oddExpr.Named := by
    refine ⟨isWord_keywords "Path" (by simp), ?_⟩
    intro key hkey
    cases hkey
    exact isWord_keywords "Mode" (by simp)
  exact ⟨hnamed, parse_iff_written.2.2 oddExpr hnamed oddPrinting⟩

end MarkupForms.Expression
