import MarkupForms.Proofs.Hydration.Unbroken

/-!
# Reading node by node is evaluating the tree

`assemble` sees one node at a time and remembers what is open. On the nodes of a whole document it
does exactly what the recursive evaluation of the document's tree does: the same root, the same
objects in the same order, or the same error at the same node with the same state behind it
(`load_eq_evaluateDocument`). Where the nodes stand does not matter, as long as all of them stand
somewhere (`assembleAt_sameAs`).

The induction is on the tree, for all feeds that may follow. A tree in front of a feed is read as
the tree is evaluated, and then reading goes on with what was open before and with the feed.
-/

namespace MarkupForms.Hydration

open Markup

section Streaming

/- The position of an offset in the document. -/
variable (position : Nat → Option Position)

/-- The assembly of a feed with the place of the node at which an error arises. -/
def assembleAt (p : Pass) (stage : Stage) : NodeFeed → Located ObjectId
  | .node place node rest =>
    ((step position p stage place.start node).arisingAt place).andThen fun next p =>
      assembleAt p next rest
  | .fault place fault =>
    (.error (place, (StructuralFault.node fault).at (position place.start)), p)
  | .finished place => ((finish position stage place.start).mapError (place, ·), p)

/-- The places are all that is added to `assemble`. -/
theorem outcome_assembleAt (p : Pass) (stage : Stage) (feed : NodeFeed) :
    (assembleAt position p stage feed).outcome = assemble position p stage feed := by
  induction feed generalizing p stage with
  | node place node rest ih =>
    rw [assembleAt, assemble]
    cases hstep : step position p stage place.start node with
    | mk result after =>
      cases result with
      | error error => rfl
      | ok next =>
        rw [Outcome.arisingAt_ok, Located.andThen_ok]
        exact ih after next
  | fault place fault => rfl
  | finished place =>
    rw [assembleAt, assemble]
    cases finish position stage place.start <;> rfl

/-! ## Where a finished object goes -/

/-- Hands the object of the element that started at `start` over to what is open around it: to a
property element, to the object around it, or to nothing if it is the root. -/
def deliver (p : Pass) (object : ObjectId) (start : Nat) : List OpenElement → Outcome Stage
  | [] => (.ok (.epilog object), p)
  | parent :: outer =>
    match parent.property with
    | some slot =>
      let filled := { slot with value := some (.object object) }
      (.ok (.content { parent with property := some filled } outer), p)
    | none =>
      match insertObject position p parent start object with
      | (.ok (), p) => (.ok (.content parent outer), p)
      | (.error error, p) => (.error error, p)

/-- Of a finished element only the object and the start matter. -/
theorem closeElement_eq_deliver (p : Pass) (element : OpenElement) (outer : List OpenElement) :
    closeElement position p element outer =
      deliver position p element.object element.start outer := by
  cases outer with
  | nil => rfl
  | cons parent outer =>
    simp only [closeElement, deliver, insertObject]
    cases parent.property with
    | some slot => rfl
    | none =>
      rcases p.insertChild parent.object parent.type element.object with ⟨error | ⟨⟩, after⟩ <;> rfl

/-! ## Inside a property element -/

/-- The parent with the property element `tag` open and `value` found in it. -/
def OpenElement.within (parent : OpenElement) (tag : StartTag) (property : String) (start : Nat)
    (value : Option RawValue) : OpenElement :=
  { parent with property := some ⟨tag, property, start, value⟩ }

/-- Behind the property element the parent is as before. -/
theorem OpenElement.property_none_within (parent : OpenElement) (tag : StartTag) (property : String)
    (start : Nat) (value : Option RawValue) (hparent : parent.property = none) :
    { parent.within tag property start value with property := none } = parent := by
  obtain ⟨parentTag, object, type, parentStart, parentProperty⟩ := parent
  cases hparent
  rfl

/-- Behind the value of a property element nothing but white space is passed over. -/
theorem assembleAt_behindValue (p : Pass) (parent : OpenElement) (outer : List OpenElement)
    (tag : StartTag) (property : String) (start : Nat) (value : RawValue) (contents : Contents)
    (rest : NodeFeed) :
    assembleAt position p (.content (parent.within tag property start (some value)) outer)
        (contents.followedBy rest) =
      (onlyValue position p tag contents value).andThen fun value p =>
        assembleAt position p (.content (parent.within tag property start (some value)) outer)
          rest := by
  match contents with
  | .none => rfl
  | .text place content more => rfl
  | .blank place more =>
    rw [Contents.followedBy, assembleAt]
    exact assembleAt_behindValue p parent outer tag property start value more rest
  -- a second element is refused at its start tag, whatever it contains
  | .element (.selfClosed place child closes) more => rfl
  | .element (.enclosing place child opens contents behind) more => rfl

/-- The end tag of a property element assigns its value. -/
theorem assembleAt_endProperty (p : Pass) (parent : OpenElement) (outer : List OpenElement)
    (tag : StartTag) (property : String) (start : Nat) (value : RawValue) (behind : Place)
    (written : String) (rest : NodeFeed) (hparent : parent.property = none) :
    assembleAt position p (.content (parent.within tag property start (some value)) outer)
        (.node behind (.endElement written) rest) =
      ((assignProperty position p parent property start value).arisingAt behind).andThen fun _ p =>
        assembleAt position p (.content parent outer) rest := by
  have hclosed := parent.property_none_within tag property start (some value) hparent
  rw [assembleAt]
  simp only [step, stepProperty, OpenElement.within, assignProperty]
  cases p.assign parent.object parent.type property value with
  | error error => rfl
  | ok next =>
    simp only [Outcome.arisingAt_ok, Located.andThen_ok]
    exact congrArg (fun element => assembleAt position next (.content element outer) rest) hclosed

/-! ## Elements and contents in front of a feed -/

mutual

/-- Reading an element evaluates it and hands its object over. `stage` is any stage in which the tag
starts an element that is read into `object`, with `outer` around it. -/
theorem assembleAt_element (p : Pass) (stage : Stage) (object : Option ObjectId)
    (outer : List OpenElement) (element : Element) (rest : NodeFeed)
    (hstep : step position p stage element.place.start (.element element.tag) =
      startElement position p object element.tag element.place.start outer) :
    assembleAt position p stage (element.followedBy rest) =
      (evaluateElement position p object element).andThen fun object p =>
        ((deliver position p object element.place.start outer).arisingAt element.lastPlace).andThen
          fun next p => assembleAt position p next rest := by
  match element with
  | .selfClosed place tag closes =>
    simp only [Element.place, Element.tag] at hstep
    rw [Element.followedBy, assembleAt, hstep, evaluateElement, startElement]
    rcases hopen : openElement position p object tag place.start with ⟨error | opened, after⟩
    · rfl
    · obtain ⟨type, resolved, taken, object', -, -, -, rfl⟩ := openElement_eq_ok hopen
      -- the element ends with the tag that opens it: one node, one step
      simp only [closes, if_true, closeElement_eq_deliver, Outcome.arisingAt_ok,
        Located.andThen_ok]
      rfl
  | .enclosing place tag opens contents behind =>
    simp only [Element.place, Element.tag] at hstep
    rw [Element.followedBy, assembleAt, hstep, evaluateElement, startElement]
    rcases hopen : openElement position p object tag place.start with ⟨error | opened, after⟩
    · rfl
    · obtain ⟨type, resolved, taken, object', -, -, -, rfl⟩ := openElement_eq_ok hopen
      simp only [opens, Bool.false_eq_true, if_false, Outcome.arisingAt_ok, Located.andThen_ok]
      -- the contents are read with the new element on the stack; then its end tag takes it off
      rw [assembleAt_contents after _ outer contents _ rfl, Located.andThen_assoc]
      refine congrArg (Located.andThen _) (funext fun _ => funext fun p => ?_)
      rw [assembleAt, step]
      simp only [stepElement, closeElement_eq_deliver, Located.andThen_ok]
      rfl

/-- Reading contents evaluates them; then what was open before is open again. -/
theorem assembleAt_contents (p : Pass) (parent : OpenElement) (outer : List OpenElement)
    (contents : Contents) (rest : NodeFeed) (hparent : parent.property = none) :
    assembleAt position p (.content parent outer) (contents.followedBy rest) =
      (evaluateContents position p parent contents).andThen fun _ p =>
        assembleAt position p (.content parent outer) rest := by
  match contents with
  | .none => rfl
  | .text place content more =>
    rw [Contents.followedBy, assembleAt, step, hparent]
    exact assembleAt_contents p parent outer more rest hparent
  | .blank place more =>
    rw [Contents.followedBy, assembleAt, step, hparent]
    exact assembleAt_contents p parent outer more rest hparent
  | .element child more =>
    rw [Contents.followedBy, evaluateContents]
    -- what is refused at the start tag is refused there whatever the element contains
    cases hposition : position child.place.start with
    | none =>
      rw [Element.followedBy_eq, assembleAt, step, hparent]
      simp only [stepElement, hposition]
      rfl
    | some here =>
      dsimp only
      by_cases hdotted : child.tag.isPropertyElement = true
      · rw [if_pos hdotted]
        cases hnamed : namedProperty? parent.tag child.tag with
        | none =>
          rw [Element.followedBy_eq, assembleAt, step, hparent]
          simp only [stepElement, hposition, hdotted, if_true, startProperty, hnamed]
          rfl
        | some property =>
          rw [assembleAt_property p parent outer child property _ hparent hposition hdotted hnamed,
            Located.andThen_assoc]
          refine congrArg (Located.andThen _) (funext fun value => funext fun p => ?_)
          rw [Located.andThen_assoc]
          refine congrArg (Located.andThen _) (funext fun _ => funext fun p => ?_)
          exact assembleAt_contents p parent outer more rest hparent
      · rw [if_neg hdotted]
        have hstep : step position p (.content parent outer) child.place.start
              (.element child.tag) =
            startElement position p none child.tag child.place.start (parent :: outer) := by
          rw [step, hparent]
          simp only [stepElement, hposition, hdotted, Bool.false_eq_true, if_false]
        -- the child's end hands its object over to the parent, which is an insertion here
        rw [assembleAt_element p (.content parent outer) none (parent :: outer) child _ hstep,
          Located.andThen_assoc]
        refine congrArg (Located.andThen _) (funext fun object => funext fun p => ?_)
        simp only [deliver, hparent]
        rcases insertObject position p parent child.place.start object with ⟨error | ⟨⟩, after⟩
        · rfl
        · simp only [Outcome.arisingAt_ok, Located.andThen_ok]
          exact assembleAt_contents after parent outer more rest hparent

/-- Reading a property element evaluates its value and assigns it. -/
theorem assembleAt_property (p : Pass) (parent : OpenElement) (outer : List OpenElement)
    (child : Element) (property : String) (rest : NodeFeed) (hparent : parent.property = none)
    {here : Position} (hposition : position child.place.start = some here)
    (hdotted : child.tag.isPropertyElement = true)
    (hnamed : namedProperty? parent.tag child.tag = some property) :
    assembleAt position p (.content parent outer) (child.followedBy rest) =
      (evaluateValue position p child).andThen fun value p =>
        ((assignProperty position p parent property child.place.start value).arisingAt
          child.lastPlace).andThen fun _ p => assembleAt position p
            (.content parent outer) rest := by
  match child with
  | .selfClosed place tag closes =>
    simp only [Element.tag, Element.place] at hposition hdotted hnamed
    rw [Element.followedBy, assembleAt, step, hparent]
    simp only [stepElement, hposition, hdotted, if_true, startProperty, hnamed, closes,
      evaluateValue]
    rfl
  | .enclosing place tag opens contents behind =>
    simp only [Element.tag, Element.place] at hposition hdotted hnamed
    rw [Element.followedBy, assembleAt, step, hparent]
    simp only [stepElement, hposition, hdotted, if_true, startProperty, hnamed, opens,
      Bool.false_eq_true, if_false, Outcome.arisingAt_ok, Located.andThen_ok]
    have hsingle := assembleAt_single p parent outer tag property place.start contents behind
      tag.name.written rest
    rw [OpenElement.within] at hsingle
    rw [hsingle, evaluateValue]
    refine congrArg (Located.andThen _) (funext fun value => funext fun p => ?_)
    exact assembleAt_endProperty position p parent outer tag property place.start value
      behind _ rest hparent

/-- Reading what stands in a property element finds its value. -/
theorem assembleAt_single (p : Pass) (parent : OpenElement) (outer : List OpenElement)
    (tag : StartTag) (property : String) (start : Nat) (contents : Contents) (behind : Place)
    (written : String) (rest : NodeFeed) :
    assembleAt position p (.content (parent.within tag property start none) outer)
        (contents.followedBy (.node behind (.endElement written) rest)) =
      (evaluateSingle position p tag behind contents).andThen fun value p =>
        assembleAt position p (.content (parent.within tag property start (some value)) outer)
          (.node behind (.endElement written) rest) := by
  match contents with
  | .none => rfl
  | .text place content more =>
    rw [Contents.followedBy, assembleAt, evaluateSingle]
    exact assembleAt_behindValue position p parent outer tag property start _ more _
  | .blank place more =>
    rw [Contents.followedBy, assembleAt, evaluateSingle]
    exact assembleAt_single p parent outer tag property start more behind written rest
  | .element child more =>
    rw [Contents.followedBy, evaluateSingle]
    by_cases hdotted : child.tag.isPropertyElement = true
    · rw [if_pos hdotted]
      rw [Element.followedBy_eq, assembleAt]
      simp only [step, OpenElement.within, stepProperty, hdotted, if_true]
      rfl
    · rw [if_neg hdotted]
      have hstep : step position p (.content (parent.within tag property start none) outer)
            child.place.start (.element child.tag) =
          startElement position p none child.tag child.place.start
            (parent.within tag property start none :: outer) := by
        simp only [step, OpenElement.within, stepProperty, hdotted, Bool.false_eq_true, if_false]
      -- here the child's object becomes the value, and the insertion has to wait for the end tag
      rw [assembleAt_element p _ none _ child _ hstep, Located.andThen_assoc]
      refine congrArg (Located.andThen _) (funext fun object => funext fun p => ?_)
      exact assembleAt_behindValue position p parent outer tag property start
        (.object object) more _

end

/-! ## Whole documents -/

/-- Behind the root element white space is passed over. -/
theorem assembleAt_blanksThenEnd (p : Pass) (root : ObjectId) (finish : Place)
    (blanks : List Place) :
    assembleAt position p (.epilog root) (blanksThenEnd finish blanks) = (.ok root, p) := by
  induction blanks with
  | nil => rfl
  | cons place blanks ih => exact ih

/-- The nodes of a document are read as the document is evaluated. -/
theorem assembleAt_document (p : Pass) (root : Option ObjectId) (doc : Document) :
    assembleAt position p (.prolog root) doc.feed = evaluateDocument position p root doc := by
  obtain ⟨prolog, element, epilog, finish⟩ := doc
  induction prolog with
  | nil =>
    -- the root has nothing around it, and what follows it is read in the epilog
    have hroot := assembleAt_element position p (.prolog root) root [] element
      (blanksThenEnd finish epilog) rfl
    have hend : ∀ object after,
        ((deliver position after object element.place.start []).arisingAt element.lastPlace).andThen
          (fun next p => assembleAt position p next (blanksThenEnd finish epilog)) =
            (.ok object, after) :=
      fun object after => assembleAt_blanksThenEnd position after object finish epilog
    simp only [hend] at hroot
    rw [Located.andThen_pure] at hroot
    exact hroot
  | cons filler prolog ih =>
    cases filler with
    | text place content => exact ih
    | blank place => exact ih

end Streaming

/-! ## Where the nodes stand -/

/-- The same value, or errors of the same kind that arise at the same node; and the same objects. -/
def Located.SameAs {α : Type} (first second : Located α) : Prop :=
  first.1.mapError (Prod.map id MarkupError.kind) =
      second.1.mapError (Prod.map id MarkupError.kind) ∧
    first.2.graph = second.2.graph

/-- Outcomes that are the same but for positions are so as outcomes of work on one node. -/
theorem Outcome.sameAs_arisingAt {α : Type} {first second : Outcome α} (place : Place)
    (h : second.1.mapError MarkupError.kind = first.1.mapError MarkupError.kind ∧
      second.2.graph = first.2.graph) :
    Located.SameAs (first.arisingAt place) (second.arisingAt place) := by
  have hplace : ∀ outcome : Outcome α,
      (outcome.arisingAt place).1.mapError (Prod.map id MarkupError.kind) =
        (outcome.1.mapError MarkupError.kind).mapError (place, ·) := by
    rintro ⟨error | value, p⟩ <;> rfl
  refine ⟨?_, h.2.symm⟩
  rw [hplace, hplace, h.1]

/-- Two runs over the same nodes that take these to stand at different positions have the same
result or fail at the same node for reasons of the same kind, unless one of them breaks off. -/
theorem assembleAt_sameAs {first second : Nat → Option Position} {feed : NodeFeed} {p : Pass}
    {stage other : Stage} (hstage : Comparison.sameResolver.AlikeStages stage other)
    (hfirst : (assemble first p stage feed).1 ≠ .error .aborted)
    (hsecond : (assemble second p other feed).1 ≠ .error .aborted) :
    Located.SameAs (assembleAt first p stage feed) (assembleAt second p other feed) := by
  have hpositions := Comparison.sameResolver_same first second
  induction feed generalizing p stage other with
  | fault place fault =>
    exact Outcome.sameAs_arisingAt place <|
      (Comparison.assemble hpositions (.refl _) (Or.inr rfl) hstage rfl).mapError_kind id
        hfirst hsecond
  | finished place =>
    exact Outcome.sameAs_arisingAt place <|
      (Comparison.assemble hpositions (.refl _) (Or.inr rfl) hstage rfl).mapError_kind id
        hfirst hsecond
  | node place node rest ih =>
    have hstep : Comparison.sameResolver.Follows Comparison.sameResolver.AlikeStages
        (step first p stage place.start node) (step second p other place.start node) :=
      Comparison.step hpositions (Or.inr rfl) hstage (.refl node) rfl
    rw [assemble_node] at hfirst hsecond
    unfold assembleAt
    generalize step first p stage place.start node = outcome at hstep hfirst ⊢
    generalize step second p other place.start node = follower at hstep hsecond ⊢
    cases hstep with
    | broken _ hbroken =>
      rcases hbroken with hbroken | hbroken
      · exact absurd (Outcome.goOn_of_error hbroken rest) hfirst
      · exact absurd (Outcome.goOn_of_error hbroken rest) hsecond
    | agrees h =>
      cases h with
      | excused hlenient => exact hlenient.elim
      | error hkind => exact ⟨congrArg Except.error (Prod.ext rfl hkind.symm), rfl⟩
      | ok hnext hs =>
        subst hs
        exact ih hnext hfirst hsecond

/-- **Loading is evaluation of the tree.** If the nodes of a text are those of a document (text and
white space, one balanced root element, white space, the end, and no fault), then reading them one
by one and evaluating the document's tree yield the same root, or the same error at the same node,
and in either case the same pass; and `load` returns just that root or error and the objects of that
pass. Unless the load breaks off, the evaluation need not ask where the nodes stand: wherever they
are taken to stand, the root or the kind and the node of the error are the same, and so are the
objects. Only behind a byte order mark does a load break off. -/
theorem load_eq_evaluateDocument (request : LoadRequest) (text : String) (doc : Document)
    (hfeed : NodeFeed.ofText text.toList = doc.feed) :
    let position := Position.ofOffset? text.toList
    let evaluated := evaluateDocument position request.pass request.root doc
    assembleAt position request.pass (.prolog request.root) (NodeFeed.ofText text.toList) =
        evaluated ∧
      request.load text = (evaluated.outcome.1, evaluated.outcome.2.graph) ∧
      (¬ request.BreaksOff text → ∀ anywhere : Nat → Option Position,
        (∀ offset, (anywhere offset).isSome) →
          evaluated.SameAs (evaluateDocument anywhere request.pass request.root doc)) ∧
      (request.BreaksOff text → text.toList.head? = some '\ufeff') := by
  intro position evaluated
  have hread : assembleAt position request.pass (.prolog request.root)
      (NodeFeed.ofText text.toList) = evaluated := by
    rw [hfeed]
    exact assembleAt_document position request.pass request.root doc
  have hload : request.load text = (evaluated.outcome.1, evaluated.outcome.2.graph) := by
    have houtcome := outcome_assembleAt position request.pass (.prolog request.root)
      (NodeFeed.ofText text.toList)
    rw [hread] at houtcome
    rw [houtcome]
    rfl
  refine ⟨hread, hload, fun hends anywhere hsome => ?_, LoadRequest.marked_of_breaksOff⟩
  rw [← hread, ← assembleAt_document, ← hfeed]
  exact assembleAt_sameAs (.prolog request.root) hends <|
    assemble_unbroken (NodeFeed.positioned_of_forall hsome _) trivial

/-- Both readings agree on `nestedText`, and neither of them fails. -/
theorem load_nestedText :
    NodeFeed.ofText nestedText.toList = nestedDocument.feed ∧
      (LoadRequest.load ⟨.empty, Forms.catalog, none, none⟩ nestedText).1 =
        (evaluateDocument (Position.ofOffset? nestedText.toList)
          (LoadRequest.pass ⟨.empty, Forms.catalog, none, none⟩) none nestedDocument).outcome.1 ∧
      (LoadRequest.load ⟨.empty, Forms.catalog, none, none⟩ nestedText).1 = .ok ⟨0⟩ := by
  obtain ⟨-, hload, -⟩ := load_eq_evaluateDocument ⟨.empty, Forms.catalog, none, none⟩ nestedText
    nestedDocument nestedText_feed
  refine ⟨nestedText_feed, ?_, ?_⟩
  · rw [hload]
  · rw [LoadRequest.load_eq_ok nestedText_feed nestedText_unmarked ⟨0⟩ rfl]

/-- The tree of `accentedText` without a blank in its tag. -/
def accentedDocument : Document where
  prolog := []
  root :=
    .enclosing ⟨0, 0⟩ ⟨⟨"StackLayout", "StackLayout", ""⟩, [⟨⟨"Id", "Id", ""⟩, "é"⟩], false⟩ rfl
      (.element (.selfClosed ⟨21, 0⟩ bareLabelTag rfl) .none) ⟨29, 0⟩
  epilog := []
  finish := ⟨43, 0⟩

/-- Not every load comes to what the tree is evaluated to. The place of the label, counted without
the byte order mark, is inside a character, so the load breaks off; the tree has nothing wrong. -/
theorem not_every_load_evaluated :
    ¬ ∀ (request : LoadRequest) (text : String) (doc : Document),
      NodeFeed.ofText text.toList = doc.feed → ∀ anywhere : Nat → Option Position,
        (∀ offset, (anywhere offset).isSome) →
          (request.load text).1.mapError MarkupError.kind =
            (evaluateDocument anywhere request.pass request.root doc).outcome.1.mapError
              MarkupError.kind := by
  intro law
  have hsame := law ⟨.empty, Forms.catalog, none, none⟩ (accentedText "") accentedDocument
    accentedText_feed.1 (fun _ => some ⟨1, 1⟩) fun _ => rfl
  rw [LoadRequest.load_of_feed _ accentedText_feed.1] at hsame
  have hended : (.error .aborted : Except ErrorKind ObjectId) = .ok ⟨0⟩ := hsame
  cases hended

end MarkupForms.Hydration
