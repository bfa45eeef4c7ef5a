import Mathlib.Data.List.TakeWhile
import MarkupForms.Proofs.Hydration.Balance
import MarkupForms.Proofs.Hydration.Comparison
import MarkupForms.Proofs.Markup.Interruption

/-!
# Loads of a document with one more aside

Text and white space leave a pass as it is. Before the root element and directly inside elements
they leave the stage as it is, too, so there it does not matter into how many nodes a run of text is
parted. Behind the root element a run that shows something is refused, and one of its parts shows
something, as well. Only a property element counts: it takes one node that shows something, and
refuses a second one.

Whether a run stands in a property element is told by the names of the open elements: property
elements have a dot in their names, and of all other elements only the root can have one
(`NamedApart`).
-/

namespace MarkupForms.Hydration

open Markup

/-! ## Property elements are told by their names -/

/-- Open elements, innermost first, whose property elements are named as such, and which are not
named as properties themselves unless they are the root. -/
def NamedApart : List OpenElement → Prop
  | [] => True
  | element :: outer =>
    (∀ slot, element.property = some slot → namesProperty slot.tag.name.written = true) ∧
      (outer ≠ [] → namesProperty element.tag.name.written = false) ∧ NamedApart outer

/-- The same of what is open at a stage. -/
def Stage.NamedApart : Stage → Prop
  | .prolog _ | .epilog _ => True
  | .content element outer => Hydration.NamedApart (element :: outer)

theorem isPropertyElement_of_spelled {tag : StartTag} (h : (Node.element tag).Spelled) :
    tag.isPropertyElement = namesProperty tag.name.written := by
  have hlocal : tag.name.localName = (cutName tag.name.written).2 := h
  rw [StartTag.isPropertyElement, namesProperty, hlocal]

/-- The innermost name is that of a property element where one is open, and only there. -/
theorem insideProperty_openNames {element : OpenElement} {outer : List OpenElement}
    (h : NamedApart (element :: outer)) :
    insideProperty (Stage.content element outer).openNames = element.property.isSome := by
  obtain ⟨hslot, hown, -⟩ := h
  rw [Stage.openNames_content]
  cases hproperty : element.property with
  | some slot =>
    rw [OpenElement.openNames_of_some hproperty]
    exact hslot slot hproperty
  | none =>
    rw [OpenElement.openNames_of_none hproperty]
    cases outer with
    | nil => rfl
    | cons parent outer =>
      have hname := hown (List.cons_ne_nil _ _)
      rw [List.flatMap_cons]
      unfold OpenElement.openNames
      cases parent.property <;> exact hname

section Steps

variable {position : Nat → Option Position} {p after : Pass} {start : Nat} {next : Stage}

theorem closeElement_namedApart {element : OpenElement} {outer : List OpenElement}
    (houter : NamedApart outer) (h : closeElement position p element outer = (.ok next, after)) :
    next.NamedApart := by
  cases outer with
  | nil => cases h; trivial
  | cons parent outer =>
    obtain ⟨hslot, hparent⟩ := houter
    rw [closeElement] at h
    cases hproperty : parent.property with
    | some slot =>
      rw [hproperty] at h
      cases h
      refine ⟨fun filled heq => ?_, hparent⟩
      cases heq
      exact hslot slot hproperty
    | none =>
      rw [hproperty] at h
      rcases hinsert : p.insertChild parent.object parent.type element.object with
        ⟨error | ⟨⟩, between⟩
      · rw [hinsert] at h; cases h
      · rw [hinsert] at h; cases h; exact ⟨hslot, hparent⟩

theorem startElement_namedApart {object : Option ObjectId} {tag : StartTag}
    {outer : List OpenElement} (houter : NamedApart outer)
    (htag : outer ≠ [] → namesProperty tag.name.written = false)
    (h : startElement position p object tag start outer = (.ok next, after)) : next.NamedApart := by
  unfold startElement at h
  split at h
  · cases h
  · next opened between hopen =>
    obtain ⟨type, resolved, taken, made, -, -, -, rfl⟩ := openElement_eq_ok hopen
    split at h
    · exact closeElement_namedApart houter h
    · cases h
      exact ⟨(fun _ heq => by cases heq), htag, houter⟩

theorem stepElement_namedApart {element : OpenElement} {outer : List OpenElement} {node : Node}
    (hstack : NamedApart (element :: outer)) (hspelled : node.Spelled)
    (h : stepElement position p element outer start node = (.ok next, after)) :
    next.NamedApart := by
  cases node with
  | endElement written => exact closeElement_namedApart hstack.2.2 h
  | element tag =>
    obtain ⟨here, hposition⟩ := position_of_stepElement (congrArg Prod.fst h)
    simp only [stepElement, hposition, isPropertyElement_of_spelled hspelled] at h
    split at h
    · next hnamed =>
      unfold startProperty at h
      split at h
      · cases h
      · split at h
        · cases h
        · cases h
          exact ⟨(fun _ heq => by cases heq; exact hnamed), hstack.2⟩
    · next hnamed =>
      exact startElement_namedApart hstack (fun _ => Bool.eq_false_iff.2 hnamed) h
  | text content => cases h; exact hstack
  | blank => cases h; exact hstack

theorem stepProperty_namedApart {element : OpenElement} {outer : List OpenElement}
    {slot : OpenProperty} {node : Node} (hslot : element.property = some slot)
    (hstack : NamedApart (element :: outer)) (hspelled : node.Spelled)
    (h : stepProperty position p element outer slot start node = (.ok next, after)) :
    next.NamedApart := by
  cases node with
  | endElement written =>
    rw [stepProperty] at h
    split at h
    · cases h
    · split at h
      · cases h
      · cases h
        exact ⟨(fun _ heq => by cases heq), hstack.2⟩
  | element tag =>
    rw [stepProperty, isPropertyElement_of_spelled hspelled] at h
    split at h
    · cases h
    · split at h
      · cases h
      · next hnamed =>
        exact startElement_namedApart hstack (fun _ => Bool.eq_false_iff.2 hnamed) h
  | text content =>
    rw [stepProperty] at h
    split at h
    · cases h
    · cases h
      exact ⟨(fun _ heq => by cases heq; exact hstack.1 slot hslot), hstack.2⟩
  | blank => cases h; exact hstack

/-- One node leaves property elements told by their names. -/
theorem step_namedApart {stage : Stage} {node : Node} (hstage : stage.NamedApart)
    (hspelled : node.Spelled) (h : step position p stage start node = (.ok next, after)) :
    next.NamedApart := by
  cases stage with
  | prolog root =>
    cases node with
    | element tag =>
      have hnone : Hydration.NamedApart [] := trivial
      exact startElement_namedApart hnone (fun hne => absurd rfl hne) h
    | endElement written => cases h
    | text content => cases h; trivial
    | blank => cases h; trivial
  | content element outer =>
    rw [step] at h
    cases hproperty : element.property with
    | some slot =>
      rw [hproperty] at h
      exact stepProperty_namedApart hproperty hstage hspelled h
    | none =>
      rw [hproperty] at h
      exact stepElement_namedApart hstage hspelled h
  | epilog root =>
    cases node with
    | blank => cases h; trivial
    | _ => cases h

end Steps

/-! ## Runs of text -/

section Runs

variable {position : Nat → Option Position} {p : Pass} {stage : Stage}

theorem step_blank (start : Nat) : step position p stage start .blank = (.ok stage, p) := by
  cases stage with
  | prolog root => rfl
  | epilog root => rfl
  | content element outer =>
    rw [step]
    cases element.property <;> rfl

/-- A run of text leaves the pass as it is, whatever becomes of it. -/
theorem step_runNode (position : Nat → Option Position) (p : Pass) (stage : Stage) (start : Nat)
    (content : List Char) :
    (∃ next, step position p stage start (runNode content) = (.ok next, p)) ∨
      ∃ fault, step position p stage start (runNode content) =
        (.error (misshapen position fault start), p) := by
  unfold runNode
  split
  · exact Or.inl ⟨stage, step_blank start⟩
  · cases stage with
    | prolog root => exact Or.inl ⟨_, rfl⟩
    | epilog root => exact Or.inr ⟨_, rfl⟩
    | content element outer =>
      rw [step]
      cases element.property with
      | none => exact Or.inl ⟨_, rfl⟩
      | some slot =>
        dsimp only
        rw [stepProperty]
        cases slot.value with
        | some value => exact Or.inr ⟨_, rfl⟩
        | none => exact Or.inl ⟨_, rfl⟩

/-- Blanks at the ends of a text do not show. -/
theorem step_text_congr (start : Nat) {content other : String}
    (h : Text.trimmed content = Text.trimmed other) :
    step position p stage start (.text content) = step position p stage start (.text other) := by
  cases stage with
  | prolog root => rfl
  | epilog root => rfl
  | content element outer =>
    rw [step, step]
    cases element.property with
    | none => rfl
    | some slot =>
      dsimp only
      rw [stepProperty, stepProperty, h]

theorem forall_blank_of_isAllBlank {cs : List Char} (h : Text.isAllBlank cs = true) :
    ∀ c ∈ cs, Text.isBlank c = true :=
  List.all_eq_true.1 h

theorem isAllBlank_append (first second : List Char) :
    Text.isAllBlank (first ++ second) = (Text.isAllBlank first && Text.isAllBlank second) :=
  List.all_append

theorem step_runNode_of_blank_left (start : Nat) {first second : List Char}
    (hblank : Text.isAllBlank first = true) :
    step position p stage start (runNode (first ++ second)) = step position p stage start
      (runNode second) := by
  have hall : Text.isAllBlank (first ++ second) = Text.isAllBlank second := by
    rw [isAllBlank_append, hblank, Bool.true_and]
  unfold runNode
  rw [hall]
  split
  · rfl
  · apply step_text_congr
    rw [Text.trimmed, Text.trimmed, String.toList_ofList, String.toList_ofList, Text.trim,
      Text.trim, Text.trimLeft_append_of_blank (forall_blank_of_isAllBlank hblank)]

theorem step_runNode_of_blank_right (start : Nat) {first second : List Char}
    (hblank : Text.isAllBlank second = true) :
    step position p stage start (runNode (first ++ second)) = step position p stage start
      (runNode first) := by
  have hall : Text.isAllBlank (first ++ second) = Text.isAllBlank first := by
    rw [isAllBlank_append, hblank, Bool.and_true]
  unfold runNode
  rw [hall]
  split
  · rfl
  · next hshows =>
    apply step_text_congr
    have hleft : Text.trimLeft (first ++ second) = Text.trimLeft first ++ second := by
      unfold Text.trimLeft
      rw [List.dropWhile_append, if_neg]
      rw [List.isEmpty_iff, List.dropWhile_eq_nil_iff]
      exact fun hnone => hshows (List.all_eq_true.2 hnone)
    rw [Text.trimmed, Text.trimmed, String.toList_ofList, String.toList_ofList, Text.trim,
      Text.trim, hleft, Text.trimRight_append_of_blank (forall_blank_of_isAllBlank hblank)]

/-- Two nodes of which the same becomes may stand for each other. -/
theorem assemble_congr {place : Place} {a b : Node} (rest : NodeFeed)
    (h : step position p stage place.start a = step position p stage place.start b) :
    assemble position p stage (.node place a rest) = assemble position p stage
      (.node place b rest) := by
  rw [assemble, assemble, h]

/-- White space may be left out. -/
theorem assemble_blank (place : Place) (rest : NodeFeed) :
    assemble position p stage (.node place .blank rest) = assemble position p stage rest := by
  rw [assemble, step_blank]

theorem assemble_node_blank (place : Place) (node : Node) (blank : Place) (rest : NodeFeed) :
    assemble position p stage (.node place node (.node blank .blank rest)) =
      assemble position p stage (.node place node rest) := by
  rw [assemble, assemble]
  rcases step position p stage place.start node with ⟨error | next, q⟩
  · rfl
  · exact assemble_blank blank rest

end Runs

/-! ## Whole runs -/

namespace Comparison

variable (C : Comparison)

/-- The run is refused: for the shape of the document or for what the first is refused for. One of
the two may also have broken off. -/
def Refuses (first second : Outcome ObjectId) : Prop :=
  (∃ error, second.1 = .error error ∧
      (error.kind = .structural ∨ first.1.mapError MarkupError.kind = .error error.kind)) ∨
    C.Apart ∧ (first.1 = .error .aborted ∨ second.1 = .error .aborted)

/-- How a second run ends if its document has one more aside: as the first, unless that `divided` a
value. Then it is refused. -/
structure Parted (divided : Bool) (first second : Outcome ObjectId) : Prop where
  whole : divided = false → C.Follows Eq first second
  refused : divided = true → C.Refuses first second

variable {C} {divided : Bool} {p : Pass} {s : Resolver}

/-- Both runs fail, or one of them has broken off. -/
theorem Parted.of_errors {q : Pass} {error : MarkupError} {outcome : Outcome ObjectId}
    (hstrict : ¬ C.Lenient) (h : C.Follows Eq (.error error, q) outcome) :
    C.Parted divided (.error error, q) outcome where
  whole _ := h
  refused _ := by
    cases h with
    | broken hapart hbroken => exact Or.inr ⟨hapart, hbroken⟩
    | agrees h =>
      cases h with
      | error hkind => exact Or.inl ⟨_, rfl, Or.inr (congrArg Except.error hkind.symm)⟩
      | excused hlenient => exact absurd hlenient hstrict

/-- One of the runs has broken off. -/
theorem Parted.of_broken {first second : Outcome ObjectId} (hapart : C.Apart)
    (hbroken : first.1 = .error .aborted ∨ second.1 = .error .aborted) :
    C.Parted divided first second where
  whole _ := .broken hapart hbroken
  refused _ := Or.inr ⟨hapart, hbroken⟩

theorem Parted.of_whole {first second : Outcome ObjectId} (hwhole : divided = false)
    (h : C.Follows Eq first second) : C.Parted divided first second where
  whole _ := h
  refused hdivided := by rw [hwhole] at hdivided; cases hdivided

/- The positions of offsets in the two documents, of which nothing else is known. -/
variable (first second : Nat → Option Position) (hapart : C.Apart)

include hapart

omit first in
/-- A complaint about the second document's shape is a refusal, or there is no position for it. -/
theorem refuses_misshapen (outcome : Outcome ObjectId) (q : Pass) (fault : ShapeFault)
    (start : Nat) :
    C.Refuses outcome (.error (Hydration.misshapen second fault start), q) := by
  unfold Hydration.misshapen
  cases second start with
  | none => exact Or.inr ⟨hapart, Or.inr rfl⟩
  | some here => exact Or.inl ⟨_, rfl, Or.inl rfl⟩

/-- A run of text of which both parts show something. -/
theorem assemble_shown {opened : List String} {here behind : List Char} (hstrict : ¬ C.Lenient)
    {stage other : Stage}
    (hstage : C.AlikeStages stage other) (hnamed : stage.NamedApart)
    (hopened : stage.openNames = opened) (hs : C.Resolvers p.resolver s)
    (placeA placeB placeC : Place) (f : NodeFeed) (hhere : Text.isAllBlank here = false)
    (hbehind : Text.isAllBlank behind = false) (hdivided : divided = insideProperty opened) :
    C.Parted divided (Hydration.assemble first p stage (.node placeA (runNode (here ++ behind)) f))
      (Hydration.assemble second (p.withResolver s) other
        (.node placeB (runNode here) (.node placeC (runNode behind) f))) := by
  have hpositions : C.Same first second := Or.inl hapart
  have hboth : Text.isAllBlank (here ++ behind) = false := by
    rw [isAllBlank_append, hhere, Bool.false_and]
  rw [runNode, hboth, runNode, hhere, runNode, hbehind]
  simp only [Bool.false_eq_true, if_false]
  cases hstage with
  | prolog root =>
    have hwhole : divided = false := by rw [hdivided, ← hopened]; rfl
    refine .of_whole hwhole ?_
    show C.Follows Eq (Hydration.assemble first p (.prolog root) f)
      (Hydration.assemble second (p.withResolver s) (.prolog root) f)
    exact assemble hpositions (.refl f) (Or.inl hapart) (.prolog root) hs
  | epilog root => exact .of_errors hstrict (misshapen hpositions (Or.inl hapart))
  | @content a b as bs hab houter =>
    have hinside := insideProperty_openNames hnamed
    rw [hopened] at hinside
    rw [hinside] at hdivided
    rw [Hydration.assemble, Hydration.assemble, Hydration.step, Hydration.step]
    obtain ⟨tag, object, type, start, property⟩ := a
    obtain ⟨otherTag, otherObject, otherType, otherStart, otherProperty⟩ := b
    obtain ⟨hlocal, rfl, rfl, hstart, hproperty⟩ := hab
    cases hproperty with
    | none =>
      have hwhole : divided = false := hdivided
      refine .of_whole hwhole ?_
      show C.Follows Eq (Hydration.assemble first p
        (.content ⟨tag, object, type, start, none⟩ as) f)
        (Hydration.assemble second (p.withResolver s)
          (.content ⟨otherTag, object, type, otherStart, none⟩ bs) f)
      exact assemble hpositions (.refl f) (Or.inl hapart)
        (.content ⟨hlocal, rfl, rfl, hstart, .none⟩ houter) hs
    | @some slot otherSlot hslot =>
      dsimp only
      rw [Hydration.stepProperty, Hydration.stepProperty, ← hslot.value]
      cases hvalue : slot.value with
      | some value => exact .of_errors hstrict (misshapen hpositions (Or.inl hapart))
      | none =>
        -- the first part has become the value when the second one comes
        refine ⟨fun hwhole => ?_, fun _ => refuses_misshapen second hapart _ _ _ _⟩
        rw [hdivided] at hwhole
        cases hwhole

/-- A run of text that is parted. -/
theorem assemble_text {opened : List String} {here behind : List Char} (hstrict : ¬ C.Lenient)
    {stage other : Stage}
    (hstage : C.AlikeStages stage other) (hnamed : stage.NamedApart)
    (hopened : stage.openNames = opened) (hs : C.Resolvers p.resolver s)
    (placeA placeB placeC : Place) (f : NodeFeed)
    (hdivided : divided = (insideProperty opened &&
      (!Text.isAllBlank here && !Text.isAllBlank behind))) :
    C.Parted divided (Hydration.assemble first p stage (.node placeA (runNode (here ++ behind)) f))
      (Hydration.assemble second (p.withResolver s) other
        (.node placeB (runNode here) (.node placeC (runNode behind) f))) := by
  have hpositions : C.Same first second := Or.inl hapart
  cases hhere : Text.isAllBlank here with
  | true =>
    -- what stands before the aside shows nothing
    have hblank : runNode here = .blank := by rw [runNode, if_pos hhere]
    have hwhole : divided = false := by
      rw [hdivided, hhere, Bool.not_true, Bool.false_and, Bool.and_false]
    rw [hblank, assemble_blank, assemble_congr f (step_runNode_of_blank_left _ hhere)]
    exact .of_whole hwhole (assemble hpositions (.node _ _ (.refl _) (.refl f))
      (Or.inl hapart) hstage hs)
  | false =>
    cases hbehind : Text.isAllBlank behind with
    | true =>
      have hblank : runNode behind = .blank := by rw [runNode, if_pos hbehind]
      have hwhole : divided = false := by
        rw [hdivided, hbehind, Bool.not_true, Bool.and_false, Bool.and_false]
      rw [hblank, assemble_congr f (step_runNode_of_blank_right _ hbehind), assemble_node_blank]
      exact .of_whole hwhole (assemble hpositions (.node _ _ (.refl _) (.refl f))
        (Or.inl hapart) hstage hs)
    | false =>
      refine assemble_shown first second hapart hstrict hstage hnamed hopened hs placeA placeB
        placeC f hhere hbehind ?_
      rw [hdivided, hhere, hbehind, Bool.not_false, Bool.and_self, Bool.and_true]

/-- **Loads of two documents, one with one more aside.** -/
theorem assemble_interrupted {opened : List String} {f g : NodeFeed}
    (h : f.Interrupted divided opened g) (hstrict : ¬ C.Lenient) {stage other : Stage}
    (hstage : C.AlikeStages stage other) (hnamed : stage.NamedApart)
    (hopened : stage.openNames = opened) (hs : C.Resolvers p.resolver s) :
    C.Parted divided (Hydration.assemble first p stage f)
      (Hydration.assemble second (p.withResolver s) other g) := by
  have hpositions : C.Same first second := Or.inl hapart
  induction h generalizing p s stage other with
  | fault _ _ a b =>
    have hkind : (MarkupError.structural (.node b) none).kind =
      (MarkupError.structural (.node a) none).kind := rfl
    exact .of_errors hstrict (.at hkind (Or.inl hapart))
  | between f hwhole =>
    exact .of_whole hwhole (assemble hpositions (.refl f) (Or.inl hapart) hstage hs)
  | text placeA placeB placeC f hdivided =>
    exact assemble_text first second hapart hstrict hstage hnamed hopened hs placeA placeB placeC
      f hdivided
  | badText placeA placeB placeC a b =>
    have hfault : (MarkupError.structural (.node b) none).kind =
      (MarkupError.structural (.node a) none).kind := rfl
    have hshape : ∀ fault, (MarkupError.structural (.shape fault) none).kind =
        (MarkupError.structural (.node a) none).kind := fun _ => rfl
    rw [Hydration.assemble, Hydration.assemble]
    rcases step_runNode second (p.withResolver s) other placeB.start _ with ⟨next, hstep⟩ |
      ⟨fault, hstep⟩
    · rw [hstep]
      exact .of_errors hstrict (.at hfault (Or.inl hapart))
    · rw [hstep]
      exact .of_errors hstrict (.at (hshape fault) (Or.inl hapart))
  | @node opened node f g placeA placeB spelled _ ih =>
    rw [assemble_node, assemble_node]
    have hplace : C.Same placeA.start placeB.start := Or.inl hapart
    have hstep := Comparison.step hpositions hplace hstage (.refl node) hs
    generalize Hydration.step second (p.withResolver s) other placeB.start node =
      follower at hstep ⊢
    rcases hfirst : Hydration.step first p stage placeA.start node with ⟨error | next, q⟩
    · rw [hfirst] at hstep
      have hboth : C.Follows Eq (.error error, q) (follower.goOn second g) :=
        @Follows.goOn C first second _ _ f g hstep fun h => by cases h
      exact .of_errors hstrict hboth
    · rw [hfirst] at hstep
      cases hstep with
      | broken _ hbroken =>
        exact .of_broken hapart
          (Or.inr (Outcome.goOn_of_error (hbroken.resolve_left fun h => by cases h) g))
      | agrees hstep =>
        cases hstep with
        | ok hnext ht =>
          refine ih hnext (step_namedApart hnamed spelled hfirst) ?_ ht
          rw [(step_openNames hfirst).2, hopened]

end Comparison

end MarkupForms.Hydration
