import Mathlib.Data.List.TakeWhile
import MarkupForms.Proofs.Markup.Interruption

/-!
# Elements without content

An element without content is written as a tag that closes itself, or as a start tag and an end tag
(`EmptyElement`). The first way is read in one step, in which a scope comes and goes; the second in
two, between which there is nothing. Written as two, a tag that closes itself comes to the same
nodes (`NodeFeed.paired`), with the same scopes behind it. So two documents that differ in such tags
only have the same nodes, once all of them are written as two (`Rewritten.sameNodes`).
-/

namespace MarkupForms.Markup

/-! ## Spaces at the end of a tag -/

section Cutting

variable {p : Char → Bool}

/-- What follows a text and does not have a property changes none of the first characters that have
it. -/
theorem takeWhile_append_of_stops {more : List Char} (hstops : ∀ c ∈ more, p c = false)
    (cs : List Char) :
    (cs ++ more).takeWhile p = cs.takeWhile p ∧
    (cs ++ more).dropWhile p = cs.dropWhile p ++ more := by
  induction cs with
  | nil =>
    cases more with
    | nil => exact ⟨rfl, rfl⟩
    | cons c more =>
      have hstop : ¬ p c = true := Bool.eq_false_iff.1 (hstops c (List.mem_cons_self ..))
      exact ⟨List.takeWhile_cons_of_neg hstop, List.dropWhile_cons_of_neg hstop⟩
  | cons c cs ih =>
    rw [List.cons_append]
    by_cases hgo : p c = true
    · simp only [List.takeWhile_cons_of_pos hgo, List.dropWhile_cons_of_pos hgo, ih.1, ih.2,
        and_self]
    · simp only [List.takeWhile_cons_of_neg hgo, List.dropWhile_cons_of_neg hgo, List.cons_append,
        and_self]

/-- If a text goes on behind its first characters with a property, what follows it does not show
either. If it does not, and all that follows has the property too, nothing is left. -/
theorem takeWhile_append_of_goes {more : List Char} (hgoes : ∀ c ∈ more, p c = true)
    (cs : List Char) :
    (cs.dropWhile p = [] ∧ (cs ++ more).dropWhile p = []) ∨
      ∃ c behind, cs.dropWhile p = c :: behind ∧ (cs ++ more).takeWhile p = cs.takeWhile p ∧
        (cs ++ more).dropWhile p = c :: (behind ++ more) := by
  induction cs with
  | nil => exact Or.inl ⟨rfl, List.dropWhile_eq_nil_iff.2 hgoes⟩
  | cons c cs ih =>
    rw [List.cons_append]
    by_cases hgo : p c = true
    · simp only [List.takeWhile_cons_of_pos hgo, List.dropWhile_cons_of_pos hgo]
      rcases ih with hall | ⟨d, behind, hbehind, htaken, hdropped⟩
      · exact Or.inl hall
      · exact Or.inr ⟨d, behind, hbehind, congrArg (c :: ·) htaken, hdropped⟩
    · rw [List.takeWhile_cons_of_neg hgo, List.takeWhile_cons_of_neg hgo,
        List.dropWhile_cons_of_neg hgo, List.dropWhile_cons_of_neg hgo]
      exact Or.inr ⟨c, cs, rfl, rfl, rfl⟩

end Cutting

/-- A tail with more text at its end. -/
def Tail.append (tail : Tail) (more : List Char) : Tail :=
  ⟨tail.offset, tail.rest ++ more⟩

section Spaces

variable {spaces : List Char} (hspaces : ∀ c ∈ spaces, isSpace c = true)

include hspaces

/-- A key ends at a space. -/
theorem Tail.span_append {p : Char → Bool} (hkey : ∀ c, isSpace c = true → p c = false)
    (tail : Tail) :
    (tail.append spaces).span p = ((tail.span p).1, (tail.span p).2.append spaces) := by
  obtain ⟨htaken, hdropped⟩ :=
    takeWhile_append_of_stops (fun c hc => hkey c (hspaces c hc)) tail.rest
  unfold Tail.span Tail.append
  dsimp only
  rw [htaken, hdropped]

theorem Tail.skipSpace_append (tail : Tail) :
    (tail.skipSpace.rest = [] ∧ (tail.append spaces).skipSpace.rest = []) ∨
      tail.skipSpace.rest ≠ [] ∧ (tail.append spaces).skipSpace = tail.skipSpace.append spaces := by
  unfold Tail.skipSpace Tail.span Tail.append
  dsimp only
  rcases takeWhile_append_of_goes hspaces tail.rest with hend | ⟨c, behind, hrest, htaken, hdropped⟩
  · exact Or.inl hend
  · rw [htaken, hdropped, hrest]
    exact Or.inr ⟨List.cons_ne_nil _ _, rfl⟩

omit hspaces in
theorem ne_quote_of_isSpace {c quote : Char} (hspace : isSpace c = true)
    (hquote : (decide (quote = '"') || decide (quote = '\'')) = true) : c ≠ quote := by
  rintro rfl
  rcases Bool.or_eq_true_iff.1 hquote with h | h
  all_goals
    rw [of_decide_eq_true h] at hspace
    cases hspace

omit hspaces in
theorem toOption_eq_some {ε α : Type} {result : Except ε α} {found : α}
    (h : result.toOption = some found) :
    result = .ok found := by
  cases result with
  | error fault => cases h
  | ok value => exact congrArg Except.ok (Option.some.inj h)

omit hspaces in
theorem toOption_eq_none {ε α : Type} {result : Except ε α} (h : result.toOption = none) :
    ∃ fault, result = .error fault := by
  cases result with
  | error fault => exact ⟨fault, rfl⟩
  | ok value => cases h

theorem toOption_readValue_append (tail : Tail) :
    (readValue (tail.append spaces)).toOption =
      (readValue tail).toOption.map fun found => (found.1, found.2.append spaces) := by
  obtain ⟨offset, rest⟩ := tail
  unfold readValue Tail.append
  cases rest with
  | nil =>
    -- a value is missing: behind the equals sign there is nothing, or a space where a quote should
    -- be
    cases spaces with
    | nil => rfl
    | cons c spaces =>
      have hquote : ¬ (decide (c = '"') || decide (c = '\'')) = true := fun hquote =>
        ne_quote_of_isSpace (hspaces c (List.mem_cons_self ..)) hquote rfl
      simp only [List.nil_append, if_neg hquote]
      rfl
  | cons quote rest =>
    simp only [List.cons_append]
    split
    · next hquote =>
      have hgoes : ∀ c ∈ spaces, (c != quote) = true := fun c hc =>
        bne_iff_ne.2 (ne_quote_of_isSpace (hspaces c hc) hquote)
      simp only [Tail.span]
      rcases takeWhile_append_of_goes hgoes rest with ⟨hend, hendMore⟩ |
        ⟨c, behind, hrest, htaken, hdropped⟩
      · rw [hend, hendMore]
        rfl
      · rw [htaken, hdropped, hrest]
        rfl
    · rfl

theorem toOption_readValue_skipSpace_append (tail : Tail) :
    (readValue (tail.append spaces).skipSpace).toOption =
      (readValue tail.skipSpace).toOption.map fun found => (found.1, found.2.append spaces) := by
  rcases tail.skipSpace_append hspaces with ⟨hend, hendMore⟩ | ⟨-, hmore⟩
  · unfold readValue
    rw [hend, hendMore]
    rfl
  · rw [hmore]
    exact toOption_readValue_append hspaces tail.skipSpace

theorem toOption_readAttribute_append (earlier : List RawAttribute) (first : Char) (tail : Tail) :
    (readAttribute earlier first (tail.append spaces)).toOption =
      (readAttribute earlier first tail).toOption.map fun found =>
        (found.1, found.2.append spaces) := by
  have hkey : ∀ c, isSpace c = true → (c != '=' && !isSpace c) = false := by
    intro c hc
    rw [hc, Bool.not_true, Bool.and_false]
  unfold readAttribute
  rw [Tail.span_append hspaces hkey tail]
  generalize (tail.span fun c => c != '=' && !isSpace c) = read
  obtain ⟨more, behind⟩ := read
  dsimp only
  rcases behind.skipSpace_append hspaces with ⟨hend, hendMore⟩ | ⟨hne, hmore⟩
  · rw [hend, hendMore]
    rfl
  · rw [hmore]
    generalize behind.skipSpace = equals at hne
    obtain ⟨offset, rest⟩ := equals
    cases rest with
    | nil => exact absurd rfl hne
    | cons c rest =>
      simp only [Tail.append, List.cons_append]
      by_cases hequals : c = '='
      · subst hequals
        cases earlier.find? (·.key == first :: more) with
        | some previous => rfl
        | none =>
          have hvalue := toOption_readValue_skipSpace_append hspaces ⟨offset + 1, rest⟩
          rw [Tail.append] at hvalue
          dsimp only at hvalue
          dsimp only
          cases hfirst : readValue (Tail.skipSpace ⟨offset + 1, rest⟩) with
          | error fault =>
            rw [hfirst] at hvalue
            obtain ⟨other, hsecond⟩ := toOption_eq_none hvalue
            simp only [hfirst, hsecond]
            rfl
          | ok found =>
            rw [hfirst] at hvalue
            simp only [hfirst, toOption_eq_some hvalue]
            rfl
      · split
        · next heq => cases heq; exact absurd rfl hequals
        · split
          · next heq => cases heq; exact absurd rfl hequals
          · rfl

end Spaces

section Attributes

variable {earlier : List RawAttribute} {tail : Tail} {first : Char} {rest : List Char}

theorem readAttributes_of_end (hend : tail.skipSpace.rest = []) :
    readAttributes earlier tail = .ok [] := by
  rw [readAttributes]
  split
  · rfl
  · next heq =>
    rw [hend] at heq
    cases heq

theorem readAttributes_of_cons (hrest : tail.skipSpace.rest = first :: rest) :
    readAttributes earlier tail =
      match readAttribute earlier first ⟨tail.skipSpace.offset + first.utf8Size, rest⟩ with
      | .error fault => .error (.badAttribute fault)
      | .ok (found, after) =>
        match unescape found.value with
        | .error fault => .error (.badValue (String.ofList found.key) fault)
        | .ok value =>
          (readAttributes (earlier ++ [found]) after).map
              ((String.ofList found.key, String.ofList value) :: ·) := by
  rw [readAttributes]
  split
  · next heq =>
    rw [hrest] at heq
    cases heq
  · next heq =>
    rw [hrest] at heq
    cases heq
    split
    · next hread => simp only [hread]
    · next found after hread =>
      simp only [hread]
      cases unescape found.value with
      | error fault => rfl
      | ok value => cases readAttributes (earlier ++ [found]) after <;> rfl

end Attributes

section Spaces

variable {spaces : List Char} (hspaces : ∀ c ∈ spaces, isSpace c = true)

include hspaces

/-- Spaces at the end change none of the attributes. -/
theorem toOption_readAttributes_append (earlier : List RawAttribute) (tail : Tail) :
    (readAttributes earlier (tail.append spaces)).toOption =
      (readAttributes earlier tail).toOption := by
  rcases tail.skipSpace_append hspaces with ⟨hend, hendMore⟩ | ⟨hne, hmore⟩
  · rw [readAttributes_of_end hend, readAttributes_of_end hendMore]
  · obtain ⟨first, rest, hrest⟩ := List.exists_cons_of_ne_nil hne
    have hrestMore : (tail.append spaces).skipSpace.rest = first :: (rest ++ spaces) := by
      rw [hmore, Tail.append, hrest]
      rfl
    have hread := toOption_readAttribute_append hspaces earlier first
      ⟨tail.skipSpace.offset + first.utf8Size, rest⟩
    rw [readAttributes_of_cons hrest, readAttributes_of_cons hrestMore, hmore]
    rw [Tail.append] at hread
    cases hfirst : readAttribute earlier first ⟨tail.skipSpace.offset + first.utf8Size, rest⟩ with
    | error fault =>
      rw [hfirst] at hread
      obtain ⟨other, hsecond⟩ := toOption_eq_none hread
      simp only [Tail.append, hsecond]
      rfl
    | ok found =>
      obtain ⟨found, after⟩ := found
      rw [hfirst] at hread
      simp only [Tail.append, toOption_eq_some hread]
      cases unescape found.value with
      | error fault => rfl
      | ok value =>
        have hshorter := readAttribute_length hfirst
        have ih := toOption_readAttributes_append (earlier ++ [found]) after
        simp only [toOption_map]
        exact congrArg _ ih
termination_by tail.rest.length
decreasing_by
  have hskipped := Tail.length_span_le isSpace tail
  have hfirst : (tail.span isSpace).2.rest = first :: rest := hrest
  rw [hfirst, List.length_cons] at hskipped
  exact Nat.lt_of_lt_of_le hshorter (Nat.le_of_succ_le hskipped)

theorem tagName_append (content : List Char) : tagName (content ++ spaces) = tagName content :=
  (takeWhile_append_of_stops (fun c hc => by rw [hspaces c hc]; rfl) content).1

theorem toOption_tagAttributes_append (content : List Char) :
    (tagAttributes (content ++ spaces)).toOption = (tagAttributes content).toOption := by
  have hname : ∀ c, isSpace c = true → (!isSpace c) = false := fun c hc => by rw [hc]; rfl
  have hspan := Tail.span_append hspaces hname ⟨0, content⟩
  unfold tagAttributes
  rw [Tail.append] at hspan
  rw [hspan]
  exact toOption_readAttributes_append hspaces [] _

end Spaces

/-- Spaces at the end of a tag do not matter, except for what is said about a bad one. -/
theorem openTag_append {spaces : List Char} (hspaces : ∀ c ∈ spaces, isSpace c = true)
    (scopes : List Scope) (content : List Char) (selfClosing : Bool) :
    openTag scopes (content ++ spaces) selfClosing = openTag scopes content selfClosing ∨
      ∃ fault other, openTag scopes (content ++ spaces) selfClosing = (.error fault, scopes) ∧
        openTag scopes content selfClosing = (.error other, scopes) := by
  have hattributes := toOption_tagAttributes_append hspaces content
  unfold openTag
  rw [tagName_append hspaces]
  cases hfirst : tagAttributes content with
  | error other =>
    rw [hfirst] at hattributes
    obtain ⟨fault, hsecond⟩ := toOption_eq_none hattributes
    rw [hsecond]
    exact Or.inr ⟨_, _, rfl, rfl⟩
  | ok attributes =>
    rw [hfirst] at hattributes
    rw [toOption_eq_some hattributes]
    exact Or.inl rfl

/-- The tag as one that encloses something. -/
def StartTag.opening (tag : StartTag) : StartTag :=
  { tag with selfClosing := false }

/-- Whether a tag closes itself is written beside what it says. -/
theorem openTag_opening (scopes : List Scope) (content : List Char) :
    openTag scopes content false =
      ((openTag scopes content true).1.map StartTag.opening, (openTag scopes content true).2) := by
  unfold openTag
  cases tagAttributes content with
  | error fault => rfl
  | ok attributes =>
    dsimp only
    unfold resolveTag
    cases elementName (scopeOf attributes :: scopes) (String.ofList (tagName content)) with
    | error fault => rfl
    | ok name =>
      dsimp only
      cases resolveAttributes (scopeOf attributes :: scopes) attributes <;> rfl

/-- What is known of a tag that can be opened: it is as it was asked for, its name is the one that
is written, and its scope is put in front. -/
theorem openTag_eq_ok {scopes inner : List Scope} {content : List Char} {selfClosing : Bool}
    {tag : StartTag} (h : openTag scopes content selfClosing = (.ok tag, inner)) :
    tag.selfClosing = selfClosing ∧ tag.name.written = String.ofList (tagName content) ∧
    inner.tail = scopes := by
  unfold openTag at h
  split at h
  · cases h
  · next attributes _ =>
    obtain ⟨htag, rfl⟩ := Prod.mk.inj h
    unfold resolveTag at htag
    split at htag
    · cases htag
    · next name hname =>
      cases hattributes : resolveAttributes (scopeOf attributes :: scopes) attributes with
      | error fault =>
        rw [hattributes] at htag
        cases htag
      | ok resolved =>
        rw [hattributes] at htag
        cases htag
        exact ⟨rfl, (elementName_eq_ok hname).1, rfl⟩

/-! ## Tags that close themselves, written as two -/

/-- A node as it is written in full: a tag that closes itself is two. -/
def Node.parts : Node → List Node
  | .element tag =>
    if tag.selfClosing then [.element tag.opening, .endElement tag.name.written] else [.element tag]
  | node => [node]

namespace NodeFeed

/-- The feed with every tag that closes itself written as two. -/
def paired : NodeFeed → NodeFeed
  | .node place first rest => first.parts.foldr (.node place) rest.paired
  | .fault place cause => .fault place cause
  | .finished place => .finished place

/-- Two feeds with the same nodes, wherever they were found, of which both end in a fault or neither
does. -/
inductive SameNodes : NodeFeed → NodeFeed → Prop where
  | node (placeA placeB : Place) (node : Node) {f g : NodeFeed} (rest : SameNodes f g) :
      SameNodes (.node placeA node f) (.node placeB node g)
  | fault (placeA placeB : Place) (a b : NodeFault) : SameNodes (.fault placeA a) (.fault placeB b)
  | finished (placeA placeB : Place) : SameNodes (.finished placeA) (.finished placeB)

namespace SameNodes

variable {f g : NodeFeed}

theorem refl (f : NodeFeed) : f.SameNodes f := by
  induction f with
  | node place node rest ih => exact .node _ _ _ ih
  | fault place cause => exact .fault _ _ _ _
  | finished place => exact .finished _ _

theorem symm (h : f.SameNodes g) : g.SameNodes f := by
  induction h with
  | node _ _ _ _ ih => exact .node _ _ _ ih
  | fault _ _ _ _ => exact .fault _ _ _ _
  | finished _ _ => exact .finished _ _

theorem trans (h : f.SameNodes g) {e : NodeFeed} (hg : g.SameNodes e) : f.SameNodes e := by
  induction h generalizing e with
  | node _ _ _ _ ih =>
    cases hg with
    | node _ _ _ hrest => exact .node _ _ _ (ih hrest)
  | fault _ _ _ _ =>
    cases hg
    exact .fault _ _ _ _
  | finished _ _ =>
    cases hg
    exact .finished _ _

theorem alike (h : f.SameNodes g) : f.Alike g := by
  induction h with
  | node _ _ node _ ih => exact .node _ _ (.refl node) ih
  | fault _ _ _ _ => exact .fault _ _ _ _
  | finished _ _ => exact .finished _ _

theorem append (h : f.SameNodes g) (nodes : List Node) (placeA placeB : Place) :
    (nodes.foldr (.node placeA) f).SameNodes (nodes.foldr (.node placeB) g) := by
  induction nodes with
  | nil => exact h
  | cons node nodes ih => exact .node _ _ _ ih

/-- The same was found in front of both. -/
theorem lead (h : f.paired.SameNodes g.paired) (found : Except NodeFault (Option Node)) :
    (NodeFeed.lead found f).paired.SameNodes (NodeFeed.lead found g).paired := by
  rcases found with fault | _ | node
  · exact .fault _ _ _ _
  · exact h
  · exact h.append node.parts _ _

end SameNodes

/-- Places do not count. -/
theorem sameNodes_placeless (f : NodeFeed) : f.paired.SameNodes f.placeless.paired := by
  induction f with
  | node place node rest ih => exact ih.append node.parts _ _
  | fault place cause => exact .fault _ _ _ _
  | finished place => exact .finished _ _

end NodeFeed

/-! ## Childless elements -/

/-- How an element without content is written whose start tag has this content: as a tag that closes
itself, or as a start tag and an end tag. There may be spaces at the end of a tag. -/
inductive EmptyElement (content : List Char) : List Char → Prop where
  | selfClosing {spaces : List Char} (blank : spaces.all isSpace = true)
      (markup : IsMarkup .startTag (content ++ spaces ++ ['/'])) :
      EmptyElement content ('<' :: (content ++ spaces ++ ['/']) ++ ['>'])
  | enclosing {spaces closing : List Char} (blank : spaces.all isSpace = true)
      (opens : IsMarkup .startTag (content ++ spaces))
      (unslashed : (content ++ spaces).getLast? ≠ some '/')
      (closes : IsMarkup .endTag ('/' :: closing))
      (named : endName ('/' :: closing) = tagName content) :
      EmptyElement content ('<' :: (content ++ spaces) ++ ['>'] ++ ('<' :: '/' :: closing ++ ['>']))

/-- What an element without content comes to, in front of what is behind it. -/
def emptyNodes (scopes : List Scope) (content : List Char) (behind : NodeFeed) : NodeFeed :=
  match (openTag scopes content false).1 with
  | .ok tag => .node ⟨0, 0⟩ (.element tag) (.node ⟨0, 0⟩ (.endElement tag.name.written) behind)
  | .error fault => .fault ⟨0, 0⟩ fault

namespace EmptyElement

variable {content element rest : List Char} {opened : List (List Char)} {scopes : List Scope}

theorem starts (h : EmptyElement content element) : ∃ inside, element = '<' :: inside := by
  cases h <;> exact ⟨_, rfl⟩

/-- A tag in front of a text, as it is cut off. -/
theorem nodesAt_tag {rule : PieceRule} {tag : List Char} {behind : List (List Char)} {event : Event}
    (hmarkup : IsMarkup rule tag) (hcomes : rule.Comes tag opened behind event) :
    nodesAt opened scopes ('<' :: tag ++ ['>'] ++ rest) =
      .lead (Cursor.nodeOf scopes event).1 (nodesAt behind
        (Cursor.nodeOf scopes event).2 rest) := by
  rw [List.append_assoc]
  exact nodesAt_of_comes hmarkup hcomes

/-- **Both ways of writing come to the same**: to a tag that opens an element and a tag that closes
it, behind which the scopes are what they were. -/
theorem sameNodes (h : EmptyElement content element) (opened : List (List Char))
    (scopes : List Scope) (rest : List Char) :
    (nodesAt opened scopes (element ++ rest)).paired.SameNodes
      (emptyNodes scopes content (nodesAt opened scopes rest).paired) := by
  unfold emptyNodes
  cases h with
  | @selfClosing spaces blank markup =>
    rw [nodesAt_tag markup (PieceRule.comes_emptyTag (content ++ spaces) opened), Cursor.nodeOf,
      openTag_opening]
    rcases openTag_append (List.all_eq_true.1 blank) scopes content true with hsame |
      ⟨fault, other, hfault, hother⟩
    · rw [hsame]
      rcases hopen : openTag scopes content true with ⟨fault | tag, inner⟩
      · exact .fault _ _ _ _
      · obtain ⟨hcloses, -, hscopes⟩ := openTag_eq_ok hopen
        show (NodeFeed.node ⟨0, 0⟩ (.element tag) (nodesAt opened inner.tail rest)).paired.SameNodes
          _
        rw [hscopes, NodeFeed.paired, Node.parts, if_pos hcloses]
        exact .refl _
    · -- the offset of the fault may depend on the spaces
      rw [hfault, hother]
      exact .fault _ _ _ _
  | @enclosing spaces closing blank opens unslashed closes named =>
    have hname : tagName (content ++ spaces) = endName ('/' :: closing) :=
      (tagName_append (List.all_eq_true.1 blank) content).trans named.symm
    rw [List.append_assoc, nodesAt_tag opens (PieceRule.comes_startTag unslashed),
      Cursor.nodeOf, hname]
    rcases openTag_append (List.all_eq_true.1 blank) scopes content false with hsame |
      ⟨fault, other, hfault, hother⟩
    · rw [hsame]
      rcases hopen : openTag scopes content false with ⟨fault | tag, inner⟩
      · exact .fault _ _ _ _
      · obtain ⟨hcloses, hwritten, hscopes⟩ := openTag_eq_ok hopen
        show (NodeFeed.node ⟨0, 0⟩ (.element tag)
          (nodesAt (endName ('/' :: closing) :: opened) inner
          ('<' :: '/' :: closing ++ ['>'] ++ rest))).paired.SameNodes _
        rw [nodesAt_tag closes PieceRule.comes_endTag, NodeFeed.paired, Node.parts,
          if_neg (by simp [hcloses]), Cursor.nodeOf, hscopes, named, ← hwritten]
        exact .refl _
    · rw [hfault, hother]
      exact .fault _ _ _ _

end EmptyElement

/-! ## Documents -/

/-- The second text is the first with some elements without content written in another way. Up to
the last of them both consist of runs of text, complete pieces of markup, and such elements. -/
inductive Rewritten : List Char → List Char → Prop where
  | same (rest : List Char) : Rewritten rest rest
  | run {run first second : List Char} (plain : '<' ∉ run)
      (behind : Rewritten ('<' :: first) ('<' :: second)) :
      Rewritten (run ++ '<' :: first) (run ++ '<' :: second)
  | markup {rule : PieceRule} {content first second : List Char} (markup : IsMarkup rule content)
      (behind : Rewritten first second) : Rewritten ('<' :: content ++ '>' :: first)
      ('<' :: content ++ '>' :: second)
  | element {content element other first second : List Char}
      (written : EmptyElement content element)
      (rewritten : EmptyElement content other) (behind : Rewritten first second) :
      Rewritten (element ++ first) (other ++ second)

namespace NodeFeed.SameNodes

variable {opened : List (List Char)} {scopes : List Scope} {first second : List Char}

/-- A piece of markup that both texts have comes to the same in both. -/
theorem markup {rule : PieceRule} {content : List Char} (hmarkup : IsMarkup rule content)
    (hbehind : ∀ opened scopes, (nodesAt opened scopes first).paired.SameNodes
      (nodesAt opened scopes second).paired) :
    (nodesAt opened scopes ('<' :: content ++ '>' :: first)).paired.SameNodes
      (nodesAt opened scopes ('<' :: content ++ '>' :: second)).paired := by
  rcases hmarkup.settles opened with ⟨fault, hfault⟩ | ⟨event, hcomes⟩
  · rw [nodesAt_of_fault hmarkup hfault, nodesAt_of_fault hmarkup hfault]
    exact .refl _
  · rw [nodesAt_of_comes hmarkup hcomes, nodesAt_of_comes hmarkup hcomes]
    exact (hbehind _ _).lead _

theorem run {run : List Char} (hplain : '<' ∉ run)
    (hbehind : (nodesAt opened scopes ('<' :: first)).paired.SameNodes
      (nodesAt opened scopes ('<' :: second)).paired) :
    (nodesAt opened scopes (run ++ '<' :: first)).paired.SameNodes
      (nodesAt opened scopes (run ++ '<' :: second)).paired := by
  by_cases hempty : run = []
  · subst hempty
    exact hbehind
  · rw [nodesAt_run hempty hplain (endsRun_markup first),
      nodesAt_run hempty hplain (endsRun_markup second)]
    exact hbehind.lead _

/-- An element without content comes to the same in whatever way it is written. -/
theorem element {content element other : List Char} (hwritten : EmptyElement content element)
    (hrewritten : EmptyElement content other)
    (hbehind : (nodesAt opened scopes first).paired.SameNodes
      (nodesAt opened scopes second).paired) :
    (nodesAt opened scopes (element ++ first)).paired.SameNodes
      (nodesAt opened scopes (other ++ second)).paired := by
  refine (hwritten.sameNodes opened scopes first).trans
    (.trans ?_ (hrewritten.sameNodes opened scopes second).symm)
  unfold emptyNodes
  cases (openTag scopes content false).1 with
  | error fault => exact .refl _
  | ok tag => exact .node _ _ _ (.node _ _ _ hbehind)

end NodeFeed.SameNodes

namespace Rewritten

variable {cs ds : List Char}

/-- Run: piece by piece, both texts come to the same, whatever is open. -/
theorem sameNodesAt (h : Rewritten cs ds) (opened : List (List Char)) (scopes : List Scope) :
    (nodesAt opened scopes cs).paired.SameNodes (nodesAt opened scopes ds).paired := by
  induction h generalizing opened scopes with
  | same rest => exact .refl _
  | run plain _ ih => exact .run plain (ih opened scopes)
  | markup markup _ ih => exact .markup markup ih
  | element written rewritten _ ih => exact .element written rewritten (ih opened scopes)

/-- Both begin with a byte order mark or neither does. -/
theorem unmarked (h : Rewritten cs ds) :
    Rewritten (Reader.ofText cs).rest (Reader.ofText ds).rest := by
  cases h with
  | same rest => exact .same _
  | markup markup behind => exact .markup markup behind
  | element written rewritten behind =>
    obtain ⟨inside, rfl⟩ := written.starts
    obtain ⟨within, rfl⟩ := rewritten.starts
    exact .element written rewritten behind
  | @run run first second plain behind =>
    cases run with
    | nil => exact .run plain behind
    | cons c run =>
      by_cases hmark : c = '\ufeff'
      · subst hmark
        exact .run (fun hmem => plain (List.mem_cons_of_mem _ hmem)) behind
      · have hrest : ∀ rest, (Reader.ofText (c :: rest)).rest = c :: rest := by
          intro rest
          unfold Reader.ofText
          split
          · next heq => exact absurd (List.cons.inj heq).1 hmark
          · rfl
        rw [List.cons_append, List.cons_append, hrest, hrest]
        exact .run plain behind

/-- **Two documents that differ in how elements without content are written have the same nodes**,
if each of these is written as two tags. -/
theorem sameNodes (h : Rewritten cs ds) :
    (NodeFeed.ofText cs).paired.SameNodes (NodeFeed.ofText ds).paired := by
  have hnodes := h.unmarked.sameNodesAt [] []
  rw [← placeless_ofText, ← placeless_ofText] at hnodes
  exact (NodeFeed.sameNodes_placeless _).trans (hnodes.trans (NodeFeed.sameNodes_placeless _).symm)

end Rewritten

end MarkupForms.Markup
