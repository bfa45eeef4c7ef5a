import MarkupForms.Proofs.Hydration.Comparison
import MarkupForms.Proofs.Hydration.Evaluation
import MarkupForms.Proofs.Markup.Position

/-!
# Loads that come to an end

A load breaks off where it asks for a position and there is none. It asks for the positions of nodes
only, those it has come to and those of open elements, so over a feed whose nodes all have positions
it comes to a root or to an error (`assemble_unbroken`). Without a byte order mark the nodes of a
text do have positions, so what breaks off has a mark (`LoadRequest.marked_of_breaksOff`).
-/

namespace MarkupForms.Hydration

open Markup

/-! ## Errors with a position -/

theorem MarkupError.at_ne_aborted {position : Option Position} {error : MarkupError}
    (hposition : position.isSome) (h : error ≠ .aborted) : error.at position ≠ .aborted := by
  obtain ⟨position, rfl⟩ := Option.isSome_iff_exists.1 hposition
  cases error with
  | aborted => exact absurd rfl h
  | _ => nofun

/-! ## What asks for no position -/

namespace Pass

variable (p : Pass)

theorem coerceFor_ne_aborted (kind : ValueKind) (name : String) (raw : RawValue) :
    p.coerceFor kind name raw ≠ .error .aborted := by
  unfold coerceFor
  cases coerce p.graph.typeName kind name raw <;> nofun

theorem assignResources_ne_aborted (type : TypeInfo) (raw : RawValue) :
    p.assignResources type raw ≠ .error .aborted := by
  unfold assignResources shareEntries
  split
  · nofun
  · split
    · split <;> nofun
    · nofun

theorem assignBinding_ne_aborted (target : ObjectId) (type : TypeInfo) (name text : String) :
    p.assignBinding target type name text ≠ .error .aborted := by
  unfold assignBinding readBinding
  cases type.findManaged name with
  | none => nofun
  | some property =>
    cases Expression.BindingExpr.parse text with
    | error fault => nofun
    | ok expr =>
      dsimp only
      split
      · nofun
      · split <;> nofun

theorem assignManaged_ne_aborted (target : ObjectId) (type : TypeInfo) (property : ManagedProperty)
    (name : String) (value : Value) :
    p.assignManaged target type property name value ≠ .error .aborted := by
  unfold assignManaged
  split
  · nofun
  · split <;> nofun

theorem assignPlain_ne_aborted (target : ObjectId) (name : String) (value : Value) :
    p.assignPlain target name value ≠ .error .aborted := by
  unfold assignPlain
  split
  · nofun
  · split <;> nofun

theorem assignValue_ne_aborted (target : ObjectId) (type : TypeInfo) (name : String)
    (raw : RawValue) : p.assignValue target type name raw ≠ .error .aborted := by
  unfold assignValue
  cases type.findManaged name with
  | some property =>
    have hcoerce := p.coerceFor_ne_aborted property.kind name raw
    dsimp only
    generalize p.coerceFor property.kind name raw = coerced at hcoerce ⊢
    cases coerced with
    | error error => exact fun h => hcoerce (congrArg Except.error (Except.error.inj h))
    | ok value => exact p.assignManaged_ne_aborted target type property name value
  | none =>
    cases type.findPlain name with
    | none => nofun
    | some kind =>
      have hcoerce := p.coerceFor_ne_aborted kind name raw
      dsimp only
      generalize p.coerceFor kind name raw = coerced at hcoerce ⊢
      cases coerced with
      | error error => exact fun h => hcoerce (congrArg Except.error (Except.error.inj h))
      | ok value => exact p.assignPlain_ne_aborted target name value

/-- An assignment needs no position. -/
theorem assign_ne_aborted (target : ObjectId) (type : TypeInfo) (name : String) (raw : RawValue) :
    p.assign target type name raw ≠ .error .aborted := by
  unfold assign
  split
  · exact p.assignResources_ne_aborted type raw
  · split
    · split
      · exact p.assignBinding_ne_aborted target type name _
      · exact p.assignValue_ne_aborted target type name _
    · exact p.assignValue_ne_aborted target type name _

theorem applyAttribute_ne_aborted (object : ObjectId) (type : TypeInfo) (attr : Markup.Attribute) :
    p.applyAttribute object type attr ≠ .error .aborted := by
  unfold applyAttribute
  split
  · exact p.assign_ne_aborted object type _ _
  · nofun
  · nofun

theorem applyAttributes_ne_aborted (object : ObjectId) (type : TypeInfo)
    (attributes : List Markup.Attribute) :
    (p.applyAttributes object type attributes).1 ≠ .error .aborted := by
  induction attributes generalizing p with
  | nil => nofun
  | cons attr attributes ih =>
    rw [applyAttributes]
    cases happly : p.applyAttribute object type attr with
    | ok next => exact ih next
    | error error =>
      intro h
      cases h
      exact p.applyAttribute_ne_aborted object type attr happly

theorem insertChild_ne_aborted (target : ObjectId) (type : TypeInfo) (child : ObjectId) :
    (p.insertChild target type child).1 ≠ .error .aborted := by
  unfold insertChild appendItem insertEntry
  split
  · split
    · rintro ⟨⟩
    · split <;> rintro ⟨⟩
  · split
    · rintro ⟨⟩
    · dsimp only
      split
      · rintro ⟨⟩
      · split <;> rintro ⟨⟩
  · rintro ⟨⟩

theorem resolveTag_ne_aborted (tag : StartTag) : (p.resolveTag tag).1 ≠ .error .aborted := by
  show (p.resolver.resolve tag.name.uri tag.name.localName).1 ≠ _
  unfold Resolver.resolve Resolver.findDeclared
  dsimp only
  split
  · split <;> nofun
  · split
    · nofun
    · dsimp only
      split
      · nofun
      · nofun
      · split
        · nofun
        · split <;> nofun

theorem takeObject_ne_aborted (type : TypeInfo) (given : Option ObjectId) :
    (p.takeObject type given).1 ≠ .error .aborted := by
  unfold takeObject construct
  cases given with
  | some object => nofun
  | none =>
    dsimp only
    cases p.graph.construct type <;> nofun

end Pass

/-! ## What has begun where there is a position -/

/-- The outcome has not broken off, and a result has the property `Good`. -/
def Outcome.Unbroken {α : Type} (Good : α → Prop) : Outcome α → Prop
  | (.ok result, _) => Good result
  | (.error error, _) => error ≠ .aborted

theorem Outcome.Unbroken.ne_aborted {α : Type} {Good : α → Prop} {outcome : Outcome α}
    (h : outcome.Unbroken Good) : outcome.1 ≠ .error .aborted := by
  rcases outcome with ⟨error | result, p⟩
  · exact fun habort => h (Except.error.inj habort)
  · nofun

section Steps

variable (position : Nat → Option Position)

/-- The element begins at a position, and so does its open property element. -/
def OpenElement.Placed (element : OpenElement) : Prop :=
  (position element.start).isSome ∧ ∀ slot ∈ element.property, (position slot.start).isSome

/-- All open elements begin at positions. -/
def Stage.Placed : Stage → Prop
  | .content element outer => ∀ opened ∈ element :: outer, opened.Placed position
  | .prolog _ | .epilog _ => True

variable {position} {start : Nat} {p : Pass} {element : OpenElement} {outer : List OpenElement}

theorem misshapen_unbroken {α : Type} {Good : α → Prop} {fault : ShapeFault}
    (hstart : (position start).isSome) :
    Outcome.Unbroken Good (.error (misshapen position fault start), p) := by
  have hfault : MarkupError.structural (.shape fault) none ≠ .aborted := nofun
  exact MarkupError.at_ne_aborted hstart hfault

theorem openElement_unbroken (given : Option ObjectId) (tag : StartTag)
    (hstart : (position start).isSome) :
    (openElement position p given tag start).Unbroken (OpenElement.Placed position) := by
  unfold openElement
  have hresolve := p.resolveTag_ne_aborted tag
  generalize p.resolveTag tag = resolved at hresolve ⊢
  rcases resolved with ⟨error | type, q⟩
  · exact fun h => hresolve (congrArg Except.error h)
  have htake := q.takeObject_ne_aborted type given
  dsimp only
  generalize q.takeObject type given = taken at htake ⊢
  rcases taken with ⟨error | object, r⟩
  · exact fun h => htake (congrArg Except.error h)
  have happly := r.applyAttributes_ne_aborted object type tag.attributes
  dsimp only
  generalize r.applyAttributes object type tag.attributes = applied at happly ⊢
  rcases applied with ⟨error | ⟨⟩, s⟩
  · exact MarkupError.at_ne_aborted hstart fun h => happly (congrArg Except.error h)
  · exact ⟨hstart, nofun⟩

theorem closeElement_unbroken (hplaced : (Stage.content element outer).Placed position) :
    (closeElement position p element outer).Unbroken (Stage.Placed position) := by
  cases outer with
  | nil => trivial
  | cons parent outer =>
    obtain ⟨helement, hparent, houter⟩ :=
      List.forall_mem_cons.1 hplaced |>.imp_right List.forall_mem_cons.1
    unfold closeElement
    dsimp only
    split
    · next slot hslot =>
      refine List.forall_mem_cons.2 ⟨⟨hparent.1, ?_⟩, houter⟩
      rintro _ ⟨⟩
      exact hparent.2 slot hslot
    · have hinsert := p.insertChild_ne_aborted parent.object parent.type element.object
      generalize p.insertChild parent.object parent.type element.object = inserted at hinsert ⊢
      rcases inserted with ⟨error | ⟨⟩, q⟩
      · exact MarkupError.at_ne_aborted helement.1 fun h => hinsert (congrArg Except.error h)
      · exact List.forall_mem_cons.2 ⟨hparent, houter⟩

theorem startElement_unbroken (given : Option ObjectId) (tag : StartTag)
    (hstart : (position start).isSome) (houter : ∀ opened ∈ outer, opened.Placed position) :
    (startElement position p given tag start outer).Unbroken (Stage.Placed position) := by
  have hopen := openElement_unbroken (p := p) given tag hstart
  unfold startElement
  generalize openElement position p given tag start = outcome at hopen ⊢
  rcases outcome with ⟨error | opened, q⟩
  · exact hopen
  · have hplaced : (Stage.content opened outer).Placed position :=
      List.forall_mem_cons.2 ⟨hopen, houter⟩
    dsimp only
    split
    · exact closeElement_unbroken hplaced
    · exact hplaced

theorem startProperty_unbroken (tag : StartTag) (hstart : (position start).isSome)
    (hplaced : (Stage.content element outer).Placed position) :
    (startProperty position p element outer tag start).Unbroken (Stage.Placed position) := by
  obtain ⟨helement, houter⟩ := List.forall_mem_cons.1 hplaced
  unfold startProperty
  split
  · exact misshapen_unbroken hstart
  · split
    · exact misshapen_unbroken hstart
    · refine List.forall_mem_cons.2 ⟨⟨helement.1, ?_⟩, houter⟩
      rintro _ ⟨⟩
      exact hstart

theorem stepElement_unbroken (node : Node) (hstart : (position start).isSome)
    (hplaced : (Stage.content element outer).Placed position) :
    (stepElement position p element outer start node).Unbroken (Stage.Placed position) := by
  cases node with
  | endElement written => exact closeElement_unbroken hplaced
  | text content => exact hplaced
  | blank => exact hplaced
  | element tag =>
    obtain ⟨here, hhere⟩ := Option.isSome_iff_exists.1 hstart
    simp only [stepElement, hhere]
    split
    · exact startProperty_unbroken tag hstart hplaced
    · exact startElement_unbroken none tag hstart hplaced

theorem stepProperty_unbroken (node : Node) (hstart : (position start).isSome) {slot : OpenProperty}
    (hslot : element.property = some slot)
    (hplaced : (Stage.content element outer).Placed position) :
    (stepProperty position p element outer slot start node).Unbroken (Stage.Placed position) := by
  obtain ⟨helement, houter⟩ := List.forall_mem_cons.1 hplaced
  have hopened := helement.2 slot hslot
  unfold stepProperty
  split
  · split
    · exact misshapen_unbroken hstart
    · split
      · next hassign =>
        refine MarkupError.at_ne_aborted hopened ?_
        rintro rfl
        exact p.assign_ne_aborted _ _ _ _ hassign
      · exact List.forall_mem_cons.2 ⟨⟨helement.1, nofun⟩, houter⟩
  · exact hplaced
  · split
    · exact misshapen_unbroken hstart
    · refine List.forall_mem_cons.2 ⟨⟨helement.1, ?_⟩, houter⟩
      rintro _ ⟨⟩
      exact hopened
  · split
    · exact misshapen_unbroken hstart
    · split
      · exact misshapen_unbroken hstart
      · exact startElement_unbroken none _ hstart hplaced

/-- **One node** that has a position does not break the reading off. -/
theorem step_unbroken {stage : Stage} (node : Node) (hstart : (position start).isSome)
    (hplaced : stage.Placed position) : (step position p stage start node).Unbroken
      (Stage.Placed position) := by
  cases stage with
  | prolog root =>
    cases node with
    | element tag => exact startElement_unbroken root tag hstart (List.forall_mem_nil _)
    | endElement written => exact misshapen_unbroken hstart
    | text content => trivial
    | blank => trivial
  | content element outer =>
    cases hslot : element.property with
    | some slot =>
      simp only [step, hslot]
      exact stepProperty_unbroken node hstart hslot hplaced
    | none =>
      simp only [step, hslot]
      exact stepElement_unbroken node hstart hplaced
  | epilog root =>
    cases node with
    | blank => trivial
    | _ => exact misshapen_unbroken hstart

theorem finish_unbroken (stage : Stage) (hstart : (position start).isSome) :
    Outcome.Unbroken (fun _ => True) (finish position stage start, p) := by
  cases stage with
  | prolog root => exact misshapen_unbroken hstart
  | content element outer => exact misshapen_unbroken hstart
  | epilog root => trivial

/-- **A whole run** over nodes that have positions does not break off. -/
theorem assemble_unbroken {stage : Stage} {f : NodeFeed} (hfeed : f.Positioned position)
    (hplaced : stage.Placed position) : (assemble position p stage f).1 ≠ .error .aborted := by
  induction f generalizing p stage with
  | fault place fault =>
    have hfault : MarkupError.structural (.node fault) none ≠ .aborted := nofun
    exact fun h => MarkupError.at_ne_aborted hfeed hfault (Except.error.inj h)
  | finished place => exact (finish_unbroken (p := p) stage hfeed).ne_aborted
  | node place node rest ih =>
    have hstep := step_unbroken (p := p) node hfeed.1 hplaced
    rw [assemble]
    generalize step position p stage place.start node = outcome at hstep ⊢
    rcases outcome with ⟨error | next, q⟩
    · exact fun h => hstep (Except.error.inj h)
    · exact ih hfeed.2 hstep

end Steps

/-- The load breaks off: it asks for a position where there is none. -/
def LoadRequest.BreaksOff (request : LoadRequest) (text : String) : Prop :=
  (request.load text).1 = .error .aborted

/-- **Only behind a byte order mark does a load break off.** -/
theorem LoadRequest.marked_of_breaksOff {request : LoadRequest} {text : String}
    (h : request.BreaksOff text) :
    text.toList.head? = some '\ufeff' := by
  by_contra hmark
  have hplaced : (Stage.prolog request.root).Placed (Position.ofOffset? text.toList) := trivial
  exact assemble_unbroken (NodeFeed.positioned_ofText hmark) hplaced h

/-! ## Loads of nodes that are known -/

section KnownNodes

variable {request : LoadRequest} {text : String} {feed : NodeFeed}

/-- What a document without a byte order mark is loaded to does not depend on where its nodes
stand. -/
theorem LoadRequest.load_of_unmarked (hfeed : NodeFeed.ofText text.toList = feed)
    (hmark : text.toList.head? ≠ some '\ufeff') :
    let assembled := assemble (fun _ => some ⟨1, 1⟩) request.pass (.prolog request.root) feed
    (request.load text).1.mapError MarkupError.kind = assembled.1.mapError MarkupError.kind ∧
      (request.load text).2 = assembled.2.graph := by
  subst hfeed
  have hroot : ∀ position, (Stage.prolog request.root).Placed position := fun _ => trivial
  have hfollows := Comparison.sameResolver.assemble (p := request.pass)
    (Comparison.sameResolver_same (fun _ => some ⟨1, 1⟩) (Position.ofOffset? text.toList))
    (.refl (NodeFeed.ofText text.toList)) (Or.inr rfl) (.prolog request.root) rfl
  exact hfollows.mapError_kind id
    (assemble_unbroken (NodeFeed.positioned_of_forall (fun _ => rfl) _) (hroot _))
    (assemble_unbroken (NodeFeed.positioned_ofText hmark) (hroot _))

/-- A document without a byte order mark that is loaded. -/
theorem LoadRequest.load_eq_ok (hfeed : NodeFeed.ofText text.toList = feed)
    (hmark : text.toList.head? ≠ some '\ufeff') (root : ObjectId)
    (h : (assemble (fun _ => some ⟨1, 1⟩) request.pass (.prolog request.root) feed).1 = .ok root) :
    request.load text =
      (.ok root,
        (assemble (fun _ => some ⟨1, 1⟩) request.pass (.prolog request.root) feed).2.graph) := by
  obtain ⟨hkind, hgraph⟩ := request.load_of_unmarked hfeed hmark
  rw [h] at hkind
  rcases hload : request.load text with ⟨error | object, after⟩
  · rw [hload] at hkind
    cases hkind
  · rw [hload] at hkind hgraph
    cases hkind
    rw [← hgraph]

end KnownNodes

/-! ## A load that breaks off -/

/-- A layout behind a byte order mark, with a character of two bytes at the end of its tag and this
blank behind it. -/
def accentedText (blank : String) : String :=
  "\ufeff<StackLayout Id='é'" ++ blank ++ "><Label/></StackLayout>"

/-- The tag of a label that closes itself, without attributes. -/
def bareLabelTag : StartTag :=
  ⟨⟨"Label", "Label", ""⟩, [], true⟩

/-- The nodes of such a layout, found at the given offsets. -/
def accentedFeed (child behind finish : Nat) : NodeFeed :=
  .node ⟨0, 0⟩ (.element ⟨⟨"StackLayout", "StackLayout", ""⟩, [⟨⟨"Id", "Id", ""⟩, "é"⟩], false⟩) <|
  .node ⟨child, 0⟩ (.element bareLabelTag) <|
  .node ⟨behind, 0⟩ (.endElement "StackLayout") <|
  .finished ⟨finish, 0⟩

theorem accentedText_feed :
    NodeFeed.ofText (accentedText "").toList = accentedFeed 21 29 43 ∧
      NodeFeed.ofText (accentedText " ").toList = accentedFeed 22 30 44 := by
  rw [NodeFeed.ofText_eq, NodeFeed.ofText_eq]
  decide +kernel

end MarkupForms.Hydration
