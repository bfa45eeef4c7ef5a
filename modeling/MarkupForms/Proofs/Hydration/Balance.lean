import MarkupForms.Proofs.Hydration.Streaming

/-!
# Only balanced documents are accepted

The stack of open elements and the reader's own account of them agree all the way through a
document: `Stage.openNames`, the names on the stack, changes with each node exactly as `Node.after`
says (`step_openNames`). Two things follow. An end tag that the assembly takes is always the end of
the element or property element that it is working on. And a document that is accepted consists of
text and white space, one element whose tags balance at every depth, and white space: it is the feed
of a `Document`.
-/

namespace MarkupForms.Hydration

open Markup

/-! ## The names of what is open -/

/-- The names of an element and of its open property element, innermost first. -/
def OpenElement.openNames (element : OpenElement) : List String :=
  match element.property with
  | some slot => [slot.tag.name.written, element.tag.name.written]
  | none => [element.tag.name.written]

/-- The names of all that is open, innermost first. -/
def Stage.openNames : Stage → List String
  | .prolog _ | .epilog _ => []
  | .content element outer => (element :: outer).flatMap OpenElement.openNames

/-- The start tag of the innermost element or property element that is open. -/
def Stage.innermostTag? : Stage → Option StartTag
  | .prolog _ | .epilog _ => none
  | .content element _ =>
    match element.property with
    | some slot => some slot.tag
    | none => some element.tag

/-- Whether the root element has been started. -/
def Stage.Entered : Stage → Prop
  | .prolog _ => False
  | .content _ _ | .epilog _ => True

theorem OpenElement.openNames_of_none {element : OpenElement} (h : element.property = none) :
    element.openNames = [element.tag.name.written] := by
  simp only [openNames, h]

theorem OpenElement.openNames_of_some {element : OpenElement} {slot : OpenProperty}
    (h : element.property = some slot) :
    element.openNames = [slot.tag.name.written, element.tag.name.written] := by
  simp only [openNames, h]

theorem Stage.openNames_content (element : OpenElement) (outer : List OpenElement) :
    (Stage.content element outer).openNames =
      element.openNames ++ outer.flatMap OpenElement.openNames :=
  List.flatMap_cons

/-- The innermost name is that of the innermost tag. -/
theorem Stage.innermostTag?_of_openNames {stage : Stage} {name : String}
    (h : stage.openNames.head? = some name) :
    ∃ tag, stage.innermostTag? = some tag ∧ tag.name.written = name := by
  cases stage with
  | prolog root => cases h
  | epilog root => cases h
  | content element outer =>
    simp only [openNames, List.flatMap_cons, OpenElement.openNames] at h
    simp only [innermostTag?]
    cases hproperty : element.property with
    | none =>
      rw [hproperty] at h
      exact ⟨element.tag, rfl, Option.some.inj h⟩
    | some slot =>
      rw [hproperty] at h
      exact ⟨slot.tag, rfl, Option.some.inj h⟩

section Steps

/- The position of an offset in the document. -/
variable {position : Nat → Option Position}

/-! ## One node -/

/-- Ending an element leaves open what was open around it. -/
theorem closeElement_openNames {p after : Pass} {element : OpenElement} {outer : List OpenElement}
    {next : Stage} (h : closeElement position p element outer = (.ok next, after)) :
    next.Entered ∧ next.openNames = outer.flatMap OpenElement.openNames := by
  cases outer with
  | nil => cases h; exact ⟨trivial, rfl⟩
  | cons parent outer =>
    rw [closeElement] at h
    rw [List.flatMap_cons]
    cases hproperty : parent.property with
    | some slot =>
      -- the value is kept in the slot, whose tag stays open
      rw [hproperty] at h
      cases h
      refine ⟨trivial, ?_⟩
      rw [Stage.openNames_content, OpenElement.openNames_of_some hproperty]
      rfl
    | none =>
      rw [hproperty] at h
      rcases hinsert : p.insertChild parent.object parent.type element.object with
        ⟨error | ⟨⟩, between⟩
      · rw [hinsert] at h; cases h
      · rw [hinsert] at h; cases h; exact ⟨trivial, rfl⟩

/-- Starting an element opens it, unless it closes itself. -/
theorem startElement_openNames {p after : Pass} {object : Option ObjectId} {tag : StartTag}
    {start : Nat} {outer : List OpenElement} {next : Stage}
    (h : startElement position p object tag start outer = (.ok next, after)) :
    next.Entered ∧
      next.openNames = (Node.element tag).after (outer.flatMap OpenElement.openNames) := by
  unfold startElement at h
  split at h
  · cases h
  · next opened between hopen =>
    obtain ⟨type, resolved, taken, made, -, -, -, rfl⟩ := openElement_eq_ok hopen
    split at h
    · next hcloses =>
      rw [Node.after_of_closes hcloses]
      exact closeElement_openNames h
    · next hopens =>
      cases h
      rw [Node.after_of_opens hopens, Stage.openNames_content, OpenElement.openNames_of_none rfl]
      exact ⟨trivial, rfl⟩

/-- Starting a property element opens it. -/
theorem startProperty_openNames {p after : Pass} {element : OpenElement} {outer : List OpenElement}
    {tag : StartTag} {start : Nat} {next : Stage} (helement : element.property = none)
    (h : startProperty position p element outer tag start = (.ok next, after)) :
    next.Entered ∧
      next.openNames =
        (Node.element tag).after (element.openNames ++ outer.flatMap OpenElement.openNames) := by
  unfold startProperty at h
  split at h
  · cases h
  · split at h
    · cases h
    · next hopens =>
      cases h
      rw [Node.after_of_opens hopens, Stage.openNames_content,
        OpenElement.openNames_of_none helement]
      exact ⟨trivial, rfl⟩

theorem stepElement_openNames {p after : Pass} {element : OpenElement} {outer : List OpenElement}
    {start : Nat} {node : Node} {next : Stage} (helement : element.property = none)
    (h : stepElement position p element outer start node = (.ok next, after)) :
    next.Entered ∧
      next.openNames = node.after (element.openNames ++ outer.flatMap OpenElement.openNames) := by
  cases node with
  | endElement written =>
    rw [OpenElement.openNames_of_none helement]
    exact closeElement_openNames h
  | element tag =>
    obtain ⟨here, hposition⟩ := position_of_stepElement (congrArg Prod.fst h)
    simp only [stepElement, hposition] at h
    split at h
    · exact startProperty_openNames helement h
    · exact startElement_openNames h
  | text content => cases h; exact ⟨trivial, rfl⟩
  | blank => cases h; exact ⟨trivial, rfl⟩

theorem stepProperty_openNames {p after : Pass} {element : OpenElement} {outer : List OpenElement}
    {slot : OpenProperty} {start : Nat} {node : Node} {next : Stage}
    (helement : element.property = some slot)
    (h : stepProperty position p element outer slot start node = (.ok next, after)) :
    next.Entered ∧
      next.openNames = node.after (element.openNames ++ outer.flatMap OpenElement.openNames) := by
  cases node with
  | endElement written =>
    rw [stepProperty] at h
    split at h
    · cases h
    · split at h
      · cases h
      · cases h
        rw [OpenElement.openNames_of_some helement]
        exact ⟨trivial, rfl⟩
  | element tag =>
    rw [stepProperty] at h
    split at h
    · cases h
    · split at h
      · cases h
      · exact startElement_openNames h
  | text content =>
    rw [stepProperty] at h
    split at h
    · cases h
    · cases h
      rw [OpenElement.openNames_of_some helement]
      exact ⟨trivial, rfl⟩
  | blank => cases h; exact ⟨trivial, rfl⟩

/-- **The stack keeps count.** Behind every node the stack names what the node leaves open, and once
the root element has been started it stays so. -/
theorem step_openNames {p after : Pass} {stage next : Stage} {start : Nat} {node : Node}
    (h : step position p stage start node = (.ok next, after)) :
    (stage.Entered → next.Entered) ∧ next.openNames = node.after stage.openNames := by
  cases stage with
  | prolog root =>
    refine ⟨fun hentered => absurd hentered id, ?_⟩
    cases node with
    | element tag => exact (startElement_openNames h).2
    | endElement written => cases h
    | text content => cases h; rfl
    | blank => cases h; rfl
  | content element outer =>
    rw [Stage.openNames_content]
    rw [step] at h
    cases hproperty : element.property with
    | some slot =>
      rw [hproperty] at h
      obtain ⟨hentered, hnames⟩ := stepProperty_openNames hproperty h
      exact ⟨fun _ => hentered, hnames⟩
    | none =>
      rw [hproperty] at h
      obtain ⟨hentered, hnames⟩ := stepElement_openNames hproperty h
      exact ⟨fun _ => hentered, hnames⟩
  | epilog root =>
    cases node with
    | blank => cases h; exact ⟨id, rfl⟩
    | _ => cases h

end Steps

/-! ## Runs -/

/-- A run between two nodes: the pass, how far the document has come, and the unread nodes. -/
structure Progress where
  pass : Pass
  stage : Stage
  unread : NodeFeed

/-- The progress at the start of a request. -/
def LoadRequest.progress (request : LoadRequest) (text : String) : Progress :=
  ⟨request.pass, .prolog request.root, .ofText text.toList⟩

/-- What a run comes to, node by node. -/
inductive Progress.Reaches (position : Nat → Option Position) (first : Progress) :
    Progress → Prop where
  | start : Reaches position first first
  | node {p after : Pass} {stage next : Stage} {place : Place} {node : Node} {rest : NodeFeed} :
      Reaches position first ⟨p, stage, .node place node rest⟩ →
      step position p stage place.start node = (.ok next, after) →
      Reaches position first ⟨after, next, rest⟩

/-- All the way through a run the unread nodes match what is open on the stack. -/
theorem Progress.Reaches.matched {position : Nat → Option Position} {first last : Progress}
    (h : first.Reaches position last) (hfirst : first.unread.Matched first.stage.openNames) :
    last.unread.Matched last.stage.openNames := by
  induction h with
  | start => exact hfirst
  | node _ hstep ih =>
    -- the stack takes up exactly the names that the feed counts with
    obtain ⟨-, hrest⟩ := ih
    show NodeFeed.Matched _ _
    rw [(step_openNames hstep).2]
    exact hrest

/-! ## Accepted feeds -/

/-- A feed that ends the open elements one after the other, each behind balanced contents, and holds
nothing but white space behind the last one. -/
def ClosesAll : (opened : List String) → NodeFeed → Prop
  | [], feed => ∃ finish blanks, feed = blanksThenEnd finish blanks
  | name :: outer, feed =>
    ∃ (contents : Contents) (behind : Place) (rest : NodeFeed),
      feed = contents.followedBy (.node behind (.endElement name) rest) ∧ ClosesAll outer rest

/-- A node in front of a feed that closes what the node leaves open. -/
theorem ClosesAll.node {name : String} {outer : List String} {place : Place} {node : Node}
    {rest : NodeFeed} (hfits : node.Fits (name :: outer))
    (h : ClosesAll (node.after (name :: outer)) rest) :
    ClosesAll (name :: outer) (.node place node rest) := by
  cases node with
  | text content =>
    obtain ⟨contents, behind, more, rfl, hmore⟩ := h
    exact ⟨.text place content contents, behind, more, rfl, hmore⟩
  | blank =>
    obtain ⟨contents, behind, more, rfl, hmore⟩ := h
    exact ⟨.blank place contents, behind, more, rfl, hmore⟩
  | endElement written =>
    have hname : name = written := Option.some.inj hfits
    subst hname
    exact ⟨.none, place, rest, rfl, h⟩
  | element tag =>
    by_cases hcloses : tag.selfClosing = true
    · rw [Node.after_of_closes hcloses] at h
      obtain ⟨contents, behind, more, rfl, hmore⟩ := h
      exact ⟨.element (.selfClosed place tag hcloses) contents, behind, more, rfl, hmore⟩
    · rw [Node.after_of_opens hcloses] at h
      -- the element's own end comes first, then that of the element around it
      obtain ⟨inner, ownEnd, _, rfl, contents, behind, more, rfl, hmore⟩ := h
      have hopens : tag.selfClosing = false := Bool.eq_false_iff.2 hcloses
      exact ⟨.element (.enclosing place tag hopens inner ownEnd) contents, behind, more, rfl, hmore⟩

/-- A start tag in front of a feed that closes what the tag leaves open is the root of a
document. -/
theorem exists_document_of_closesAll {place : Place} {tag : StartTag} {rest : NodeFeed}
    (h : ClosesAll ((Node.element tag).after []) rest) :
    ∃ doc : Document, NodeFeed.node place (.element tag) rest = doc.feed := by
  by_cases hself : tag.selfClosing = true
  · rw [Node.after_of_closes hself] at h
    obtain ⟨finish, blanks, rfl⟩ := h
    exact ⟨⟨[], .selfClosed place tag hself, blanks, finish⟩, rfl⟩
  · rw [Node.after_of_opens hself] at h
    obtain ⟨contents, behind, _, rfl, finish, blanks, rfl⟩ := h
    have hopens : tag.selfClosing = false := Bool.eq_false_iff.2 hself
    exact ⟨⟨[], .enclosing place tag hopens contents behind, blanks, finish⟩, rfl⟩

section Acceptance

/- The position of an offset in the document. -/
variable {position : Nat → Option Position}

/-- Inside and behind the root element, an accepted feed closes all that is open. -/
theorem closesAll_of_assemble {p after : Pass} {stage : Stage} {feed : NodeFeed} {root : ObjectId}
    (hentered : stage.Entered) (hmatched : feed.Matched stage.openNames)
    (h : assemble position p stage feed = (.ok root, after)) : ClosesAll stage.openNames feed := by
  induction feed generalizing p stage with
  | node place node rest ih =>
    rw [assemble] at h
    rcases hstep : step position p stage place.start node with ⟨error | next, between⟩
    · rw [hstep] at h; cases h
    · rw [hstep] at h
      obtain ⟨hfits, hrest⟩ := hmatched
      obtain ⟨hnext, hnames⟩ := step_openNames hstep
      rw [← hnames] at hrest
      have hcloses := ih (hnext hentered) hrest h
      -- behind the node the feed closes what is open there, which the node itself has settled
      rw [hnames] at hcloses
      cases stage with
      | prolog root => exact absurd hentered id
      | content element outer =>
        rw [Stage.openNames_content] at hfits hcloses ⊢
        cases hproperty : element.property with
        | none =>
          rw [OpenElement.openNames_of_none hproperty] at hfits hcloses ⊢
          exact ClosesAll.node hfits hcloses
        | some slot =>
          rw [OpenElement.openNames_of_some hproperty] at hfits hcloses ⊢
          exact ClosesAll.node hfits hcloses
      | epilog object =>
        cases node with
        | blank =>
          obtain ⟨finish, blanks, rfl⟩ := hcloses
          exact ⟨finish, place :: blanks, rfl⟩
        | _ => cases hstep
  | fault place fault => cases h
  | finished place =>
    cases stage with
    | prolog root => exact absurd hentered id
    | content element outer => cases h
    | epilog object => exact ⟨place, [], rfl⟩

/-- An accepted feed is that of a document. -/
theorem exists_document_of_assemble {p after : Pass} {given : Option ObjectId} {feed : NodeFeed}
    {root : ObjectId} (hmatched : feed.Matched [])
    (h : assemble position p (.prolog given) feed = (.ok root, after)) :
    ∃ doc : Document, feed = doc.feed := by
  induction feed with
  | node place node rest ih =>
    obtain ⟨-, hrest⟩ := hmatched
    cases node with
    | text content =>
      obtain ⟨doc, rfl⟩ := ih hrest h
      exact ⟨{ doc with prolog := .text place content :: doc.prolog }, rfl⟩
    | blank =>
      obtain ⟨doc, rfl⟩ := ih hrest h
      exact ⟨{ doc with prolog := .blank place :: doc.prolog }, rfl⟩
    | endElement written => cases h
    | element tag =>
      rw [assemble] at h
      rcases hstep : step position p (.prolog given) place.start (.element tag) with
        ⟨error | next, between⟩
      · rw [hstep] at h; cases h
      · rw [hstep] at h
        obtain ⟨hentered, hnames⟩ := startElement_openNames hstep
        -- around the root nothing is open
        rw [List.flatMap_nil] at hnames
        rw [← hnames] at hrest
        have hcloses := closesAll_of_assemble hentered hrest h
        rw [hnames] at hcloses
        exact exists_document_of_closesAll hcloses
  | fault place fault => cases h
  | finished place => cases h

end Acceptance

/-- A load that succeeds has evaluated the tree of a document. -/
theorem exists_evaluation_of_load {request : LoadRequest} {text : String} {root : ObjectId}
    {after : Graph} (h : request.load text = (.ok root, after)) :
    ∃ doc : Document, NodeFeed.ofText text.toList = doc.feed ∧ ∃ q,
      evaluateDocument (Position.ofOffset? text.toList) request.pass request.root doc =
        (.ok root, q) ∧ q.graph = after := by
  rcases hassemble : assemble (Position.ofOffset? text.toList) request.pass (.prolog request.root)
    (NodeFeed.ofText text.toList) with ⟨outcome, q⟩
  have hload : request.load text = (outcome, q.graph) :=
    congrArg (fun assembled : Outcome ObjectId => (assembled.1, assembled.2.graph)) hassemble
  rw [h] at hload
  cases hload
  obtain ⟨doc, hfeed⟩ := exists_document_of_assemble (NodeFeed.matched_ofText text.toList) hassemble
  refine ⟨doc, hfeed, q, ?_, rfl⟩
  have hevaluate := outcome_assembleAt (Position.ofOffset? text.toList) request.pass
    (.prolog request.root) (NodeFeed.ofText text.toList)
  rw [hassemble, hfeed, assembleAt_document] at hevaluate
  exact Located.outcome_eq_ok.1 hevaluate

/-- **Only balanced documents are accepted, and no end tag is mistaken.** If a text is loaded, its
nodes are text and white space, one root element whose tags balance at every depth, white space, and
the end; so neither a truncated document nor a second root nor text behind the root is accepted. And
at every end tag that any run comes to, whatever becomes of it later, some element or property
element is being worked on and the end tag has its name. -/
theorem load_balanced (request : LoadRequest) (text : String) :
    (∀ root, (request.load text).1 = .ok root →
        ∃ doc : Document, NodeFeed.ofText text.toList = doc.feed) ∧
      ∀ (p : Pass) (stage : Stage) (place : Place) (written : String) (rest : NodeFeed),
        (request.progress text).Reaches (Position.ofOffset? text.toList)
            ⟨p, stage, .node place (.endElement written) rest⟩ →
          ∃ tag, stage.innermostTag? = some tag ∧ tag.name.written = written := by
  have hmatched : (NodeFeed.ofText text.toList).Matched [] := NodeFeed.matched_ofText text.toList
  constructor
  · intro root hroot
    obtain ⟨doc, hfeed, -⟩ := exists_evaluation_of_load (Prod.ext hroot rfl)
    exact ⟨doc, hfeed⟩
  · intro p stage place written rest hreaches
    obtain ⟨hfits, -⟩ := hreaches.matched hmatched
    exact Stage.innermostTag?_of_openNames hfits

/-- The nested page is accepted, so its nodes are those of a document. -/
theorem load_balanced_nestedText :
    (LoadRequest.load ⟨.empty, Forms.catalog, none, none⟩ nestedText).1 = .ok ⟨0⟩ ∧
      ∃ doc : Document, NodeFeed.ofText nestedText.toList = doc.feed := by
  have hload : (LoadRequest.load ⟨.empty, Forms.catalog, none, none⟩ nestedText).1 = .ok ⟨0⟩ := by
    rw [LoadRequest.load_eq_ok nestedText_feed nestedText_unmarked ⟨0⟩ rfl]
  exact ⟨hload, (load_balanced ⟨.empty, Forms.catalog, none, none⟩ nestedText).1 ⟨0⟩ hload⟩

end MarkupForms.Hydration
