import MarkupForms.Proofs.Hydration.Evaluation

/-!
# What a pass keeps

A pass changes its objects and tables in five ways only: it looks up the type of a tag, makes a new
object of that type, assigns a property of an object it has open, declares a key on one, or inserts
a child into one. `PassInvariant` names what a promise about the pass owes for each of them, and the
two theorems below carry the promise through everything else, once: through a run over any feed,
whatever its faults (`PassInvariant.assemble`), and through the evaluation of any tree
(`PassInvariant.evaluateElement`).
-/

namespace MarkupForms.Hydration

open Markup

/-- A promise about a pass, what is known of each object that is open under its declared type, and
what is known of each object that was made for an element inside the root. -/
structure Promise where
  Holds : Pass → Prop
  Open : Pass → ObjectId → TypeInfo → Prop
  Made : Pass → ObjectId → Prop

/-- The promise holds of a later pass, and what is known of objects is known there too. -/
structure Promise.Advances (I : Promise) (p next : Pass) : Prop where
  holds : I.Holds next
  opened : ∀ o t, I.Open p o t → I.Open next o t
  made : ∀ o, I.Made p o → I.Made next o

/-- A promise that each of the five changes keeps. -/
structure PassInvariant extends Promise where
  resolves {p : Pass} (tag : StartTag) : Holds p → toPromise.Advances p (p.resolveTag tag).2
  constructs {p resolved : Pass} {tag : StartTag} {type : TypeInfo} {object : ObjectId}
    {graph : Graph} : Holds p → p.resolveTag tag = (.ok type, resolved) →
    construct resolved.graph type = .ok (object, graph) →
    toPromise.Advances p { resolved with graph := graph } ∧
      Open { resolved with graph := graph } object type ∧
      Made { resolved with graph := graph } object
  assigns {p next : Pass} {object : ObjectId} {type : TypeInfo} {name : String} {raw : RawValue} :
    Holds p → Open p object type → (∀ object, raw = .object object → Made p object) →
    p.assign object type name raw = .ok next → toPromise.Advances p next
  declares {p : Pass} {object : ObjectId} {type : TypeInfo} (key : String) :
    Holds p → Open p object type →
    toPromise.Advances p { p with keys := p.keys.declare object key }
  inserts {p : Pass} {object child : ObjectId} {type : TypeInfo} :
    Holds p → Open p object type → Made p child →
    toPromise.Advances p (p.insertChild object type child).2

/-- The tag of the root element, if the feed has one: only text may stand before it. -/
def rootTag? : NodeFeed → Option StartTag
  | .node _ (.element tag) _ => some tag
  | .node _ (.text _) rest | .node _ .blank rest => rootTag? rest
  | .node _ (.endElement _) _ | .fault _ _ | .finished _ => none

namespace Promise.Advances

variable {I : Promise}

theorem refl {p : Pass} (h : I.Holds p) : I.Advances p p :=
  ⟨h, fun _ _ hopen => hopen, fun _ hmade => hmade⟩

theorem trans {p between next : Pass} (h : I.Advances p between) (h' : I.Advances between next) :
    I.Advances p next :=
  ⟨h'.holds, fun o t hopen => h'.opened o t (h.opened o t hopen),
    fun o hmade => h'.made o (h.made o hmade)⟩

theorem andThen {α β : Type} {p : Pass} {located : Located α} {next : α → Pass → Located β}
    (h : I.Advances p located.2)
    (hnext : ∀ value q, I.Advances p q → I.Advances q (next value q).2) :
    I.Advances p (located.andThen next).2 := by
  obtain ⟨error | value, q⟩ := located
  · exact h
  · exact h.trans (hnext value q h)

end Promise.Advances

namespace PassInvariant

variable {I : PassInvariant}

/-- A raw value that is an object was made by the pass. -/
def MadeIn (I : PassInvariant) (p : Pass) (raw : RawValue) : Prop :=
  ∀ object, raw = .object object → I.Made p object

theorem madeIn_text (p : Pass) (content : String) : I.MadeIn p (.text content) := by
  intro object htext
  cases htext

/-! ## One tag -/

theorem applyAttribute {p next : Pass} {object : ObjectId} {type : TypeInfo}
    {attr : Markup.Attribute} (hp : I.Holds p) (hopen : I.Open p object type)
    (h : p.applyAttribute object type attr = .ok next) : I.Advances p next := by
  unfold Pass.applyAttribute at h
  split at h
  · exact I.assigns hp hopen (madeIn_text p _) h
  · cases h; exact I.declares _ hp hopen
  · cases h; exact .refl hp

theorem applyAttributes {p : Pass} {object : ObjectId} {type : TypeInfo} (hp : I.Holds p)
    (hopen : I.Open p object type) (attrs : List Markup.Attribute) :
    I.Advances p (p.applyAttributes object type attrs).2 := by
  induction attrs generalizing p with
  | nil => exact .refl hp
  | cons attr attrs ih =>
    rw [Pass.applyAttributes]
    cases hattr : p.applyAttribute object type attr with
    | error error => exact .refl hp
    | ok next =>
      have hnext := applyAttribute hp hopen hattr
      exact hnext.trans (ih hnext.holds (hnext.opened _ _ hopen))

/-- What is known of an element's object: it is open, and the pass made it unless it was given. -/
def Knows (I : PassInvariant) (p : Pass) (given : Option ObjectId) (object : ObjectId)
    (type : TypeInfo) : Prop :=
  I.Open p object type ∧ (given = none → I.Made p object)

theorem Knows.advance {p next : Pass} {given : Option ObjectId} {object : ObjectId}
    {type : TypeInfo} (h : I.Knows p given object type) (hadvance : I.Advances p next) :
    I.Knows next given object type :=
  ⟨hadvance.opened _ _ h.1, fun hnone => hadvance.made _ (h.2 hnone)⟩

/-- The object that the attributes of a tag go to is open. Of an object that is given it has to be
known before that it goes with the type of the tag. -/
theorem takeObject {p resolved : Pass} {tag : StartTag} {type : TypeInfo} {object : Option ObjectId}
    (hp : I.Holds p) (hresolve : p.resolveTag tag = (.ok type, resolved))
    (hgiven : ∀ given, object = some given → I.Open resolved given type) :
    I.Advances p (resolved.takeObject type object).2 ∧
      ∀ taken, (resolved.takeObject type object).1 = .ok taken →
        I.Knows (resolved.takeObject type object).2 object taken type := by
  have hresolved : I.Advances p resolved := by
    have h := I.resolves tag hp
    rw [hresolve] at h
    exact h
  cases object with
  | some given =>
    refine ⟨hresolved, fun taken h => ?_⟩
    cases h
    exact ⟨hgiven _ rfl, fun hnone => by cases hnone⟩
  | none =>
    rw [Pass.takeObject]
    cases hmade : construct resolved.graph type with
    | error error => exact ⟨hresolved, fun _ h => by cases h⟩
    | ok made =>
      obtain ⟨hadvance, hopen, hnew⟩ := I.constructs hp hresolve hmade
      refine ⟨hadvance, fun taken h => ?_⟩
      cases h
      exact ⟨hopen, fun _ => hnew⟩

section Steps

/- The position of an offset in the document. -/
variable (position : Nat → Option Position)

/-- Opening an element keeps the promise, and the element it opens is open. -/
theorem openElement {p : Pass} {object : Option ObjectId} {tag : StartTag} (start : Nat)
    (hp : I.Holds p)
    (hgiven : ∀ given, object = some given → ∀ type resolved,
      p.resolveTag tag = (.ok type, resolved) → I.Open resolved given type) :
    I.Advances p (Hydration.openElement position p object tag start).2 ∧
      ∀ opened, (Hydration.openElement position p object tag start).1 = .ok opened →
        I.Knows (Hydration.openElement position p object tag start).2 object opened.object
          opened.type ∧ opened.property = none := by
  unfold Hydration.openElement
  rcases hresolve : p.resolveTag tag with ⟨error | type, resolved⟩
  · have hresolved := I.resolves tag hp
    rw [hresolve] at hresolved
    exact ⟨hresolved, fun _ h => by cases h⟩
  · have htake := takeObject hp hresolve fun given h => hgiven given h type resolved hresolve
    dsimp only
    rcases htaken : resolved.takeObject type object with ⟨error | taken, p'⟩
    · rw [htaken] at htake
      exact ⟨htake.1, fun _ h => by cases h⟩
    · rw [htaken] at htake
      have hknown : I.Knows p' object taken type := htake.2 taken rfl
      have happly := applyAttributes htake.1.holds hknown.1 tag.attributes
      dsimp only
      rcases happlied : p'.applyAttributes taken type tag.attributes with ⟨error | ⟨⟩, p''⟩
      · rw [happlied] at happly
        exact ⟨htake.1.trans happly, fun _ h => by cases h⟩
      · rw [happlied] at happly
        refine ⟨htake.1.trans happly, fun opened h => ?_⟩
        cases h
        exact ⟨hknown.advance happly, rfl⟩

/-! ## Runs -/

/-- What is known of the elements on the way, the innermost first: each is open, the value found in
its property element was made by the pass, and so was its own object, unless it is the root's. -/
structure AllOpen (I : PassInvariant) (p : Pass) (elements : List OpenElement) : Prop where
  opened : ∀ element ∈ elements, I.Open p element.object element.type
  values : ∀ element ∈ elements, ∀ slot value, element.property = some slot →
    slot.value = some value → I.MadeIn p value
  inner : ∀ element ∈ elements.dropLast, I.Made p element.object

namespace AllOpen

variable {p next : Pass} {element : OpenElement} {outer elements : List OpenElement}

theorem none (p : Pass) : I.AllOpen p [] where
  opened _ h := by cases h
  values _ h := by cases h
  inner _ h := by cases h

theorem advance (h : I.AllOpen p elements) (hadvance : I.Advances p next) :
    I.AllOpen next elements where
  opened element hmem := hadvance.opened _ _ (h.opened element hmem)
  values element hmem slot value hslot hvalue object hobject :=
    hadvance.made _ (h.values element hmem slot value hslot hvalue object hobject)
  inner element hmem := hadvance.made _ (h.inner element hmem)

theorem head (h : I.AllOpen p (element :: outer)) : I.Open p element.object element.type :=
  h.opened element List.mem_cons_self

theorem tail (h : I.AllOpen p (element :: outer)) : I.AllOpen p outer where
  opened other hmem := h.opened other (List.mem_cons_of_mem _ hmem)
  values other hmem := h.values other (List.mem_cons_of_mem _ hmem)
  inner other hmem := by
    cases outer with
    | nil => cases hmem
    | cons parent outer => exact h.inner other (List.mem_cons_of_mem _ hmem)

/-- An element that stands inside another one was made by the pass. -/
theorem made {parent : OpenElement} (h : I.AllOpen p (element :: parent :: outer)) :
    I.Made p element.object :=
  h.inner element List.mem_cons_self

/-- One more element, inside the others. -/
theorem cons (h : I.AllOpen p outer) (hopen : I.Open p element.object element.type)
    (hmade : outer ≠ [] → I.Made p element.object) (hproperty : element.property = Option.none) :
    I.AllOpen p (element :: outer) where
  opened := List.forall_mem_cons.2 ⟨hopen, h.opened⟩
  values := by
    refine List.forall_mem_cons.2 ⟨fun slot value hslot => ?_, h.values⟩
    rw [hproperty] at hslot
    cases hslot
  inner := by
    cases outer with
    | nil => exact fun _ hmem => by cases hmem
    | cons parent outer =>
      exact List.forall_mem_cons.2 ⟨hmade (List.cons_ne_nil _ _), h.inner⟩

/-- Another value in the property element of the innermost element, or no property element. -/
theorem withProperty (h : I.AllOpen p (element :: outer)) (property : Option OpenProperty)
    (hvalue : ∀ slot value, property = some slot → slot.value = some value → I.MadeIn p value) :
    I.AllOpen p ({ element with property := property } :: outer) where
  opened := List.forall_mem_cons.2 ⟨h.head, h.tail.opened⟩
  values := List.forall_mem_cons.2 ⟨hvalue, h.tail.values⟩
  inner := by
    cases outer with
    | nil => exact fun _ hmem => by cases hmem
    | cons parent outer => exact List.forall_mem_cons.2 ⟨h.made, h.tail.inner⟩

end AllOpen

/-- The root element has started, and every element that is open at the stage is open. -/
def Underway (I : PassInvariant) (p : Pass) : Stage → Prop
  | .prolog _ => False
  | .content element outer => I.AllOpen p (element :: outer)
  | .epilog _ => True

/-- What a step owes: the promise, and what is known of the stage it comes to. -/
def Keeps (I : PassInvariant) (p : Pass) (outcome : Outcome Stage) : Prop :=
  I.Advances p outcome.2 ∧ ∀ next, outcome.1 = .ok next → I.Underway outcome.2 next

theorem Keeps.error {p next : Pass} (h : I.Advances p next) (error : MarkupError) :
    I.Keeps p (.error error, next) :=
  ⟨h, fun _ h => by cases h⟩

theorem Keeps.content {p next : Pass} {element : OpenElement} {outer : List OpenElement}
    (hadvance : I.Advances p next) (hopen : I.AllOpen next (element :: outer)) :
    I.Keeps p (.ok (.content element outer), next) := by
  refine ⟨hadvance, fun stage h => ?_⟩
  cases h
  exact hopen

theorem closeElement {p : Pass} {element : OpenElement} {outer : List OpenElement} (hp : I.Holds p)
    (hopen : I.AllOpen p (element :: outer)) :
    I.Keeps p (Hydration.closeElement position p element outer) := by
  cases outer with
  | nil => exact ⟨.refl hp, fun _ h => by cases h; trivial⟩
  | cons parent outer =>
    rw [Hydration.closeElement]
    cases hproperty : parent.property with
    | some property =>
      -- the object becomes the value of the property element around it
      refine Keeps.content (.refl hp) (hopen.tail.withProperty _ fun slot value hslot hvalue => ?_)
      intro object hobject
      cases hslot
      cases hvalue
      cases hobject
      exact hopen.made
    | none =>
      have hinsert : I.Advances p (p.insertChild parent.object parent.type element.object).2 :=
        I.inserts hp hopen.tail.head hopen.made
      dsimp only
      rcases hinserted : p.insertChild parent.object parent.type element.object with
        ⟨error | ⟨⟩, next⟩
      · rw [hinserted] at hinsert
        exact Keeps.error hinsert _
      · rw [hinserted] at hinsert
        exact Keeps.content hinsert (hopen.tail.advance hinsert)

theorem startElement {p : Pass} {object : Option ObjectId} {tag : StartTag} (start : Nat)
    {outer : List OpenElement} (hp : I.Holds p) (hopen : I.AllOpen p outer)
    (hgiven : ∀ given, object = some given → ∀ type resolved,
      p.resolveTag tag = (.ok type, resolved) → I.Open resolved given type)
    (hinside : outer ≠ [] → object = none) :
    I.Keeps p (Hydration.startElement position p object tag start outer) := by
  rw [Hydration.startElement]
  have hstart := openElement position start hp hgiven
  rcases hopened : Hydration.openElement position p object tag start with ⟨error | opened, next⟩
  · rw [hopened] at hstart
    exact Keeps.error hstart.1 _
  · rw [hopened] at hstart
    obtain ⟨hadvance, hnew⟩ := hstart
    obtain ⟨hknown, hproperty⟩ := hnew opened rfl
    -- the new element joins those around it, which are still open behind its tag
    have hall : I.AllOpen next (opened :: outer) :=
      (hopen.advance hadvance).cons hknown.1 (fun houter => hknown.2 (hinside houter)) hproperty
    dsimp only
    split
    · have hclose := closeElement position hadvance.holds hall
      exact ⟨hadvance.trans hclose.1, hclose.2⟩
    · exact Keeps.content hadvance hall

theorem stepElement {p : Pass} {element : OpenElement} {outer : List OpenElement} (start : Nat)
    (node : Node) (hp : I.Holds p) (hopen : I.AllOpen p (element :: outer)) :
    I.Keeps p (Hydration.stepElement position p element outer start node) := by
  have hstay : I.Keeps p (.ok (.content element outer), p) :=
    Keeps.content (.refl hp) hopen
  cases node with
  | endElement written => exact closeElement position hp hopen
  | element tag =>
    simp only [Hydration.stepElement]
    split
    · exact Keeps.error (.refl hp) _
    · split
      · unfold startProperty
        split
        · exact Keeps.error (.refl hp) _
        · split
          · exact Keeps.error (.refl hp) _
          · refine Keeps.content (.refl hp) (hopen.withProperty _ fun slot value hslot hvalue => ?_)
            cases hslot
            cases hvalue
      · exact startElement position start hp hopen (fun _ h => by cases h) fun _ => rfl
  | text _ => exact hstay
  | blank => exact hstay

theorem stepProperty {p : Pass} {element : OpenElement} {outer : List OpenElement}
    {slot : OpenProperty} (start : Nat) (node : Node) (hp : I.Holds p)
    (hopen : I.AllOpen p (element :: outer)) (hslot : element.property = some slot) :
    I.Keeps p (Hydration.stepProperty position p element outer slot start node) := by
  have hstay : I.Keeps p (.ok (.content element outer), p) :=
    Keeps.content (.refl hp) hopen
  have hfail : ∀ error, I.Keeps p (.error error, p) := Keeps.error (.refl hp)
  cases node with
  | endElement written =>
    simp only [Hydration.stepProperty]
    cases hvalue : slot.value with
    | none => exact hfail _
    | some value =>
      have hmade : I.MadeIn p value :=
        hopen.values element List.mem_cons_self slot value hslot hvalue
      dsimp only
      cases hassign : p.assign element.object element.type slot.property value with
      | error error => exact hfail _
      | ok next =>
        have hadvance := I.assigns hp hopen.head hmade hassign
        refine Keeps.content hadvance ((hopen.advance hadvance).withProperty _ fun _ _ hnone => ?_)
        cases hnone
  | element tag =>
    simp only [Hydration.stepProperty]
    cases slot.value with
    | some value => exact hfail _
    | none =>
      dsimp only
      split
      · exact hfail _
      · exact startElement position start hp hopen (fun _ h => by cases h) fun _ => rfl
  | text content =>
    simp only [Hydration.stepProperty]
    cases slot.value with
    | some value => exact hfail _
    | none =>
      refine Keeps.content (.refl hp) (hopen.withProperty _ fun _ _ hfilled hvalue => ?_)
      cases hfilled
      cases hvalue
      exact madeIn_text p _
  | blank => exact hstay

theorem step {p : Pass} {stage : Stage} (start : Nat) (node : Node) (hp : I.Holds p)
    (hstage : I.Underway p stage) : I.Keeps p (Hydration.step position p stage start node) := by
  cases stage with
  | prolog object => exact hstage.elim
  | content element outer =>
    rw [Hydration.step]
    cases hproperty : element.property with
    | some slot => exact stepProperty position start node hp hstage hproperty
    | none => exact stepElement position start node hp hstage
  | epilog root =>
    cases node with
    | blank => exact ⟨.refl hp, fun _ h => by cases h; trivial⟩
    | element _ | endElement _ | text _ => exact Keeps.error (.refl hp) _

theorem assemble_underway {p : Pass} {stage : Stage} (feed : NodeFeed) (hp : I.Holds p)
    (hstage : I.Underway p stage) :
    I.Advances p (Hydration.assemble position p stage feed).2 := by
  induction feed generalizing p stage with
  | fault place fault => exact .refl hp
  | finished place => exact .refl hp
  | node place node rest ih =>
    -- a fault ends the run with the promise kept; else the step's stage is underway again
    rw [Hydration.assemble]
    have hstep := step position place.start node hp hstage
    rcases hnext : Hydration.step position p stage place.start node with ⟨error | next, p'⟩
    · rw [hnext] at hstep
      exact hstep.1
    · rw [hnext] at hstep
      exact hstep.1.trans (ih hstep.1.holds (hstep.2 next rfl))

/-- **A run keeps the promise**, whatever the feed and whether the run succeeds. Of an object that
is given for the root element it has to be known that it goes with the type of the root's tag. -/
theorem assemble {p : Pass} {object : Option ObjectId} (feed : NodeFeed) (hp : I.Holds p)
    (hgiven : ∀ given, object = some given → ∀ tag, rootTag? feed = some tag →
      ∀ type resolved, p.resolveTag tag = (.ok type, resolved) → I.Open resolved given type) :
    I.Advances p (Hydration.assemble position p (.prolog object) feed).2 := by
  induction feed with
  | fault place fault => exact .refl hp
  | finished place => exact .refl hp
  | node place node rest ih =>
    rw [Hydration.assemble]
    cases node with
    | text content => exact ih hgiven
    | blank => exact ih hgiven
    | endElement written => exact .refl hp
    | element tag =>
      -- the given object goes to the first tag only; from here on the stage says what is open
      have hstart := startElement position place.start hp (AllOpen.none p)
        (fun given h => hgiven given h tag rfl) fun h => absurd rfl h
      rw [Hydration.step]
      rcases hnext : Hydration.startElement position p object tag place.start [] with
        ⟨error | next, p'⟩
      · rw [hnext] at hstart
        exact hstart.1
      · rw [hnext] at hstart
        exact hstart.1.trans (assemble_underway position rest hstart.1.holds (hstart.2 next rfl))

/-! ## Trees -/

/-- What the evaluation of an element owes: the promise, and what is known of the object it
yields. -/
def Yields (I : PassInvariant) (p : Pass) (given : Option ObjectId)
    (located : Located ObjectId) : Prop :=
  I.Advances p located.2 ∧
    ∀ object, located.1 = .ok object → ∃ type, I.Knows located.2 given object type

/-- What the evaluation of a property element owes: the promise, and that the value was made by the
pass. -/
def YieldsValue (I : PassInvariant) (p : Pass) (located : Located RawValue) : Prop :=
  I.Advances p located.2 ∧ ∀ value, located.1 = .ok value → I.MadeIn located.2 value

theorem Yields.andThen {α : Type} {p : Pass} {located : Located ObjectId}
    {next : ObjectId → Pass → Located α} (h : I.Yields p none located)
    (hnext : ∀ object q, I.Advances p q → I.Made q object → I.Advances q (next object q).2) :
    I.Advances p (located.andThen next).2 := by
  obtain ⟨error | object, q⟩ := located
  · exact h.1
  · obtain ⟨type, -, hmade⟩ := h.2 object rfl
    exact h.1.trans (hnext object q h.1 (hmade rfl))

theorem YieldsValue.andThen {α : Type} {p : Pass} {located : Located RawValue}
    {next : RawValue → Pass → Located α} (h : I.YieldsValue p located)
    (hnext : ∀ value q, I.Advances p q → I.MadeIn q value → I.Advances q (next value q).2) :
    I.Advances p (located.andThen next).2 := by
  obtain ⟨error | value, q⟩ := located
  · exact h.1
  · exact h.1.trans (hnext value q h.1 (h.2 value rfl))

/-- An element yields the object that it opens, whatever keeps the promise on the way to its end. -/
theorem yields_opened {p : Pass} {object : Option ObjectId} {place : Place} {tag : StartTag}
    {next : OpenElement → Pass → Located ObjectId} (hp : I.Holds p)
    (hgiven : ∀ given, object = some given → ∀ type resolved,
      p.resolveTag tag = (.ok type, resolved) → I.Open resolved given type)
    (hnext : ∀ opened q, I.Holds q → I.Open q opened.object opened.type →
      I.Advances q (next opened q).2 ∧
        ∀ made, (next opened q).1 = .ok made → made = opened.object) :
    I.Yields p object
      (((Hydration.openElement position p object tag place.start).arisingAt place).andThen
        next) := by
  have hopening := openElement position place.start hp hgiven
  rcases hopened : Hydration.openElement position p object tag place.start with ⟨error | opened, q⟩
  · rw [hopened] at hopening
    exact ⟨hopening.1, fun _ h => by cases h⟩
  · rw [hopened] at hopening
    obtain ⟨hknown, -⟩ := hopening.2 opened rfl
    obtain ⟨hadvance, hmade⟩ := hnext opened q hopening.1.holds hknown.1
    refine ⟨hopening.1.trans hadvance, fun made h => ⟨opened.type, ?_⟩⟩
    rw [hmade made h]
    exact hknown.advance hadvance

theorem assignProperty {p : Pass} {parent : OpenElement} {property : String} {start : Nat}
    {value : RawValue} (hp : I.Holds p) (hopen : I.Open p parent.object parent.type)
    (hvalue : I.MadeIn p value) :
    I.Advances p (Hydration.assignProperty position p parent property start value).2 := by
  unfold Hydration.assignProperty
  cases hassign : p.assign parent.object parent.type property value with
  | error error => exact .refl hp
  | ok next => exact I.assigns hp hopen hvalue hassign

theorem insertObject {p : Pass} {parent : OpenElement} {start : Nat} {object : ObjectId}
    (hp : I.Holds p) (hopen : I.Open p parent.object parent.type) (hobject : I.Made p object) :
    I.Advances p (Hydration.insertObject position p parent start object).2 := by
  have hinsert : I.Advances p (p.insertChild parent.object parent.type object).2 :=
    I.inserts hp hopen hobject
  unfold Hydration.insertObject
  rcases hinserted : p.insertChild parent.object parent.type object with ⟨error | ⟨⟩, next⟩ <;>
    (rw [hinserted] at hinsert; exact hinsert)

theorem onlyValue {p : Pass} {tag : StartTag} {rest : Contents} {value : RawValue} (hp : I.Holds p)
    (hvalue : I.MadeIn p value) :
    I.YieldsValue p (Hydration.onlyValue position p tag rest value) := by
  unfold Hydration.onlyValue
  split
  · exact ⟨.refl hp, fun _ h => by cases h⟩
  · exact ⟨.refl hp, fun _ h => by cases h; exact hvalue⟩

mutual

/-- **The evaluation of an element keeps the promise.** -/
theorem evaluateElement {p : Pass} (object : Option ObjectId) (hp : I.Holds p) :
    (element : Element) → (hgiven : ∀ given, object = some given → ∀ type resolved,
      p.resolveTag element.tag = (.ok type, resolved) → I.Open resolved given type) →
    I.Yields p object (Hydration.evaluateElement position p object element)
  | .selfClosed _ _ _, hgiven =>
    yields_opened position hp hgiven fun _ _ hq _ => ⟨.refl hq, fun _ h => by cases h; rfl⟩
  | .enclosing _ _ _ contents _, hgiven =>
    yields_opened position hp hgiven fun opened q hq hopen => by
      refine ⟨Promise.Advances.andThen (evaluateContents hq hopen contents) fun _ _ h =>
        .refl h.holds,
        fun made h => ?_⟩
      rcases hinside : Hydration.evaluateContents position q opened contents with ⟨error | ⟨⟩, r⟩
      · rw [hinside] at h; cases h
      · rw [hinside] at h; cases h; rfl

theorem evaluateContents {p : Pass} {parent : OpenElement} (hp : I.Holds p)
    (hopen : I.Open p parent.object parent.type) :
    (contents : Contents) → I.Advances p (Hydration.evaluateContents position p parent contents).2
  | .none => .refl hp
  | .text _ _ rest => evaluateContents hp hopen rest
  | .blank _ rest => evaluateContents hp hopen rest
  | .element child rest => by
    rw [Hydration.evaluateContents]
    split
    · exact .refl hp
    split
    · split
      · exact .refl hp
      · refine (evaluateValue hp child).andThen fun value q hvalue hmade => ?_
        have hparent := hvalue.opened _ _ hopen
        refine Promise.Advances.andThen (assignProperty position hvalue.holds hparent hmade)
          fun _ r hassign => ?_
        exact evaluateContents hassign.holds (hassign.opened _ _ hparent) rest
    · -- the parent has to be open, and the child's object made, when one is inserted into the other
      have hyields := evaluateElement none hp child fun _ h => by cases h
      refine hyields.andThen fun object q hchild hobject => ?_
      have hparent := hchild.opened _ _ hopen
      refine Promise.Advances.andThen (insertObject position hchild.holds hparent hobject)
        fun _ r hinsert => ?_
      exact evaluateContents hinsert.holds (hinsert.opened _ _ hparent) rest

theorem evaluateValue {p : Pass} (hp : I.Holds p) :
    (element : Element) → I.YieldsValue p (Hydration.evaluateValue position p element)
  | .selfClosed _ _ _ => ⟨.refl hp, fun _ h => by cases h⟩
  | .enclosing _ _ _ contents _ => evaluateSingle hp contents

theorem evaluateSingle {p : Pass} {tag : StartTag} {behind : Place} (hp : I.Holds p) :
    (contents : Contents) → I.YieldsValue p
    (Hydration.evaluateSingle position p tag behind contents)
  | .none => ⟨.refl hp, fun _ h => by cases h⟩
  | .blank _ rest => evaluateSingle hp rest
  | .text _ _ _ => onlyValue position hp (madeIn_text p _)
  | .element child rest => by
    rw [Hydration.evaluateSingle]
    split
    · exact ⟨.refl hp, fun _ h => by cases h⟩
    · have hyields := evaluateElement none hp child fun _ h => by cases h
      rcases hchild : Hydration.evaluateElement position p none child with ⟨error | object, q⟩
      · rw [hchild] at hyields
        exact ⟨hyields.1, fun _ h => by cases h⟩
      · rw [hchild] at hyields
        obtain ⟨type, -, hmade⟩ := hyields.2 object rfl
        have honly :
            I.YieldsValue q (Hydration.onlyValue position q tag rest (.object object)) := by
          apply onlyValue position hyields.1.holds
          intro given hgiven
          cases hgiven
          exact hmade rfl
        exact ⟨hyields.1.trans honly.1, honly.2⟩

end

end Steps

end PassInvariant

end MarkupForms.Hydration
