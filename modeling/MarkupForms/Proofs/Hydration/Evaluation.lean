import MarkupForms.Hydration.Document
import MarkupForms.Proofs.Markup.Tree

/-!
# Evaluating a document as a tree

The meaning of a document, by recursion on its tree: an element takes its object and applies its
attributes; then each child is evaluated in turn and either assigned, if it is a property element,
or inserted into the object. No reader, no stack of open elements and no state of progress occurs
here.

An error comes with the place of the node at which it arises, which is not always the position that
it reports: a child that does not fit is refused when it ends and reported where it starts. So the
position of a child is needed before the child is evaluated, and where there is none the evaluation
breaks off.
-/

namespace MarkupForms.Hydration

open Markup

/-- What the evaluation of a part of a document yields: a value, or an error and the place of the
node at which it arises; and the pass behind it. -/
abbrev Located (α : Type) := Except (Place × MarkupError) α × Pass

/-- The outcome without the place of an error. -/
def Located.outcome {α : Type} (located : Located α) : Outcome α :=
  (located.1.mapError Prod.snd, located.2)

/-- The outcome of work on the node at `place`. -/
def Outcome.arisingAt {α : Type} (place : Place) (outcome : Outcome α) : Located α :=
  (outcome.1.mapError (place, ·), outcome.2)

/-- Goes on with a value and the pass behind it, or stops with an error. -/
def Located.andThen {α β : Type} (located : Located α) (next : α → Pass → Located β) : Located β :=
  match located with
  | (.ok value, p) => next value p
  | (.error error, p) => (.error error, p)

section Evaluation

/- The position of an offset in the document. -/
variable (position : Nat → Option Position)

/-- The document has the wrong shape at `place`. -/
def misplaced {α : Type} (p : Pass) (fault : ShapeFault) (place : Place) : Located α :=
  (.error (place, misshapen position fault place.start), p)

/-- Assigns the value of the property element that starts at the offset `start`. -/
def assignProperty (p : Pass) (parent : OpenElement) (property : String) (start : Nat)
    (value : RawValue) : Outcome Unit :=
  match p.assign parent.object parent.type property value with
  | .error error => (.error (error.at (position start)), p)
  | .ok next => (.ok (), next)

/-- Inserts the object of the element that starts at the offset `start`. -/
def insertObject (p : Pass) (parent : OpenElement) (start : Nat) (object : ObjectId) :
    Outcome Unit :=
  match p.insertChild parent.object parent.type object with
  | (.error error, p) => (.error (error.at (position start)), p)
  | (.ok (), p) => (.ok (), p)

/-- The value of a property element whose further contents are `rest`: there may be nothing but
white space in them. -/
def onlyValue (p : Pass) (tag : StartTag) (rest : Contents) (value : RawValue) : Located RawValue :=
  match rest.firstPlace? with
  | some place => misplaced position p (.repeatedValue tag.name.written) place
  | none => (.ok value, p)

mutual

/-- Evaluates an element into `object`, or else into a new object of the type that its tag names. -/
def evaluateElement (p : Pass) (object : Option ObjectId) : Element → Located ObjectId
  | .selfClosed place tag _ =>
    ((openElement position p object tag place.start).arisingAt place).andThen fun opened p =>
      (.ok opened.object, p)
  | .enclosing place tag _ contents _ =>
    ((openElement position p object tag place.start).arisingAt place).andThen fun opened p =>
      (evaluateContents p opened contents).andThen fun _ p => (.ok opened.object, p)

/-- Evaluates what stands inside an element, child by child: a property element is assigned under
the property that it names, another element is inserted. A child without a position breaks the
evaluation off. Text is passed over. -/
def evaluateContents (p : Pass) (parent : OpenElement) : Contents → Located Unit
  | .none => (.ok (), p)
  | .text _ _ rest | .blank _ rest => evaluateContents p parent rest
  | .element child rest =>
    match position child.place.start with
    | none => (.error (child.place, .aborted), p)
    | some _ =>
      if child.tag.isPropertyElement then
        match namedProperty? parent.tag child.tag with
        | none =>
          let fault := .foreignProperty child.tag.name.written parent.tag.name.written
          misplaced position p fault child.place
        | some property =>
          (evaluateValue p child).andThen fun value p =>
            ((assignProperty position p parent property child.place.start value).arisingAt
              child.lastPlace).andThen fun _ p => evaluateContents p parent rest
      else
        (evaluateElement p none child).andThen fun object p =>
          ((insertObject position p parent child.place.start object).arisingAt
            child.lastPlace).andThen
            fun _ p => evaluateContents p parent rest

/-- The single value in a property element. -/
def evaluateValue (p : Pass) : Element → Located RawValue
  | .selfClosed place tag _ => misplaced position p (.emptyProperty tag.name.written) place
  | .enclosing _ tag _ contents behind => evaluateSingle p tag behind contents

/-- The single value between the tags of the property element `tag`, which ends at `behind`: an
object or a run of text. White space may stand around it. -/
def evaluateSingle (p : Pass) (tag : StartTag) (behind : Place) : Contents → Located RawValue
  | .none => misplaced position p (.emptyProperty tag.name.written) behind
  | .blank _ rest => evaluateSingle p tag behind rest
  | .text _ content rest => onlyValue position p tag rest (.text (Text.trimmed content))
  | .element child rest =>
    if child.tag.isPropertyElement then
      misplaced position p (.nestedProperty child.tag.name.written tag.name.written) child.place
    else
      (evaluateElement p none child).andThen fun object p =>
        onlyValue position p tag rest (.object object)

end

/-- Evaluates a document into a given object or into a new one. What stands around the root element
means nothing. -/
def evaluateDocument (p : Pass) (root : Option ObjectId) (doc : Document) : Located ObjectId :=
  evaluateElement position p root doc.root

end Evaluation

/-- A child that is evaluated stands at a position. -/
theorem position_of_evaluateContents {position : Nat → Option Position} {p q : Pass}
    {parent : OpenElement} {child : Element} {rest : Contents}
    (h : evaluateContents position p parent (.element child rest) = (.ok (), q)) :
    ∃ here, position child.place.start = some here := by
  rw [evaluateContents] at h
  cases hposition : position child.place.start with
  | none =>
    rw [hposition] at h
    cases h
  | some here => exact ⟨here, rfl⟩

/-- The pass that a request starts with. -/
def LoadRequest.pass (request : LoadRequest) : Pass :=
  .start request.graph (.ofCatalog request.catalog request.localModule)

/-- A load of a text whose nodes are known. -/
theorem LoadRequest.load_of_feed (request : LoadRequest) {text : String} {feed : NodeFeed}
    (h : NodeFeed.ofText text.toList = feed) :
    request.load text =
      let assembled := assemble (Position.ofOffset? text.toList) request.pass
        (.prolog request.root) feed
      (assembled.1, assembled.2.graph) := by
  subst h
  rfl

/-- An element that is opened has gone through each of the three steps. -/
theorem openElement_eq_ok {position : Nat → Option Position} {p after : Pass}
    {object : Option ObjectId} {tag : StartTag} {start : Nat} {opened : OpenElement}
    (h : openElement position p object tag start = (.ok opened, after)) :
    ∃ type resolved taken made, p.resolveTag tag = (.ok type, resolved) ∧
      resolved.takeObject type object = (.ok made, taken) ∧
      taken.applyAttributes made type tag.attributes = (.ok (), after) ∧
      opened = ⟨tag, made, type, start, none⟩ := by
  unfold openElement at h
  rcases hresolve : p.resolveTag tag with ⟨error | type, resolved⟩
  · rw [hresolve] at h; cases h
  · rcases htake : resolved.takeObject type object with ⟨error | made, taken⟩
    · simp only [hresolve, htake] at h; cases h
    · rcases happly : taken.applyAttributes made type tag.attributes with ⟨error | ⟨⟩, applied⟩
      · simp only [hresolve, htake, happly] at h; cases h
      · simp only [hresolve, htake, happly] at h
        cases h
        exact ⟨type, resolved, taken, made, rfl, htake, happly, rfl⟩

/-- An outcome with a value. -/
theorem exists_of_toOption {ε α β : Type} {outcome : Except ε α × β} {value : α}
    (h : outcome.1.toOption = some value) : ∃ after, outcome = (.ok value, after) := by
  obtain ⟨error | found, after⟩ := outcome
  · cases h
  · cases h
    exact ⟨after, rfl⟩

/-! ## Sequencing -/

namespace Located

variable {α β γ : Type}

@[simp] theorem andThen_ok (value : α) (p : Pass) (next : α → Pass → Located β) :
    andThen (.ok value, p) next = next value p := rfl

theorem outcome_eq_ok {located : Located α} {value : α} {p : Pass} :
    located.outcome = (.ok value, p) ↔ located = (.ok value, p) := by
  obtain ⟨error | found, p'⟩ := located <;> constructor <;> intro h <;> cases h <;> rfl

theorem andThen_assoc (located : Located α) (next : α → Pass → Located β)
    (last : β → Pass → Located γ) :
    (located.andThen next).andThen last =
      located.andThen fun value p => (next value p).andThen last := by
  obtain ⟨value | error, p⟩ := located <;> rfl

theorem andThen_pure (located : Located α) :
    (located.andThen fun value p => (.ok value, p)) = located := by
  obtain ⟨error | value, p⟩ := located <;> rfl

/-- A sequence succeeds when both of its parts do. -/
theorem andThen_eq_ok {located : Located α} {next : α → Pass → Located β} {result : β} {p : Pass} :
    located.andThen next = (.ok result, p) ↔
      ∃ value between, located = (.ok value, between) ∧ next value between = (.ok result, p) := by
  obtain ⟨error | value, between⟩ := located
  · constructor
    · intro h; cases h
    · rintro ⟨_, _, h, _⟩; cases h
  · constructor
    · intro h; exact ⟨value, between, rfl, h⟩
    · rintro ⟨_, _, h, hnext⟩; cases h; exact hnext

end Located

namespace Outcome

variable {α : Type}

@[simp] theorem arisingAt_ok (place : Place) (value : α) (p : Pass) :
    Outcome.arisingAt place (.ok value, p) = (.ok value, p) := rfl

theorem arisingAt_eq_ok {place : Place} {outcome : Outcome α} {value : α} {p : Pass} :
    outcome.arisingAt place = (.ok value, p) ↔ outcome = (.ok value, p) := by
  obtain ⟨error | value', p'⟩ := outcome <;> constructor <;> intro h <;> cases h <;> rfl

/-- What comes of the rest of a document behind a step. -/
def goOn (position : Nat → Option Position) (outcome : Outcome Stage) (rest : NodeFeed) :
    Outcome ObjectId :=
  match outcome with
  | (.ok stage, p) => assemble position p stage rest
  | (.error error, p) => (.error error, p)

end Outcome

/-- Nothing is read behind an error. -/
theorem Outcome.goOn_of_error {position : Nat → Option Position} {outcome : Outcome Stage}
    {error : MarkupError} (h : outcome.1 = .error error) (rest : NodeFeed) :
    (outcome.goOn position rest).1 = .error error := by
  obtain ⟨result, p⟩ := outcome
  cases h
  rfl

theorem assemble_node {position : Nat → Option Position} (p : Pass) (stage : Stage) (place : Place)
    (node : Node) (rest : NodeFeed) :
    assemble position p stage (.node place node rest) =
      (step position p stage place.start node).goOn position rest :=
  rfl

end MarkupForms.Hydration
