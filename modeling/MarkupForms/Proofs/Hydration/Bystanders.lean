import MarkupForms.Proofs.Hydration.Balance
import MarkupForms.Proofs.Hydration.Frame

/-!
# Objects that are not on the way

A pass writes to the objects of open elements only. Whatever other objects it holds, it holds them
as they are through any evaluation and to the end of any run, also one that fails (`keeps`). What a
run comes to between two nodes stays on that footing: every object that is open there is in the
graph (`Progress.Reaches.underway`), and the rest of the run ends as the whole run does
(`Progress.Reaches.assemble_eq`).
-/

namespace MarkupForms.Hydration

open Markup

/-! ## Where a write goes -/

/-- An assignment writes to its target, if to any object. -/
theorem Pass.graph_of_assign {p next : Pass} {target : ObjectId} {type : TypeInfo} {name : String}
    {raw : RawValue} (h : p.assign target type name raw = .ok next) :
    next.graph = p.graph ∨ ∃ c, next.graph = p.graph.set target c := by
  cases Pass.assigned_of_assign h with
  | shared => exact .inl rfl
  | dangling => exact .inl rfl
  | bound => exact .inr ⟨_, rfl⟩
  | managed => exact .inr ⟨_, rfl⟩
  | plain => exact .inr ⟨_, rfl⟩

/-- An insertion writes to its target, if to any object. -/
theorem Pass.graph_insertChild (p : Pass) (target : ObjectId) (type : TypeInfo) (child : ObjectId) :
    (p.insertChild target type child).2.graph = p.graph ∨
      ∃ c, (p.insertChild target type child).2.graph = p.graph.set target c := by
  have hinserted := p.inserted_insertChild target type child
  generalize p.insertChild target type child = outcome at hinserted
  cases hinserted with
  | item => exact .inr ⟨_, rfl⟩
  | entry => exact .inr ⟨_, rfl⟩
  | refused => exact .inl rfl

theorem Pass.size_of_assign {p next : Pass} {target : ObjectId} {type : TypeInfo} {name : String}
    {raw : RawValue} (h : p.assign target type name raw = .ok next) :
    next.graph.size = p.graph.size := by
  rcases Pass.graph_of_assign h with hsame | ⟨c, hset⟩
  · rw [hsame]
  · rw [hset, Graph.size_set]

theorem Pass.size_insertChild (p : Pass) (target : ObjectId) (type : TypeInfo) (child : ObjectId) :
    (p.insertChild target type child).2.graph.size = p.graph.size := by
  rcases p.graph_insertChild target type child with hsame | ⟨c, hset⟩
  · rw [hsame]
  · rw [hset, Graph.size_set]

/-! ## The promise -/

section Keeps

variable (W : ObjectId → Component → Prop)

/-- The watched objects are as they are said to be, and none of them is open; what is open is
there. -/
def keepsPromise : Promise where
  Holds p := ∀ object c, W object c → p.graph.component? object = some c
  Open p object _ := object.index < p.graph.size ∧ ∀ c, ¬ W object c
  Made _ _ := True

variable {W}

theorem keepsPromise_same {p next : Pass} (h : (keepsPromise W).Holds p)
    (hgraph : next.graph = p.graph) :
    (keepsPromise W).Advances p next where
  holds object c hwatched := by rw [hgraph]; exact h object c hwatched
  opened object type hopen := by
    show object.index < next.graph.size ∧ _
    rw [hgraph]
    exact hopen
  made _ _ := trivial

theorem keepsPromise_write {p next : Pass} {target : ObjectId} {type : TypeInfo}
    (h : (keepsPromise W).Holds p) (hopen : (keepsPromise W).Open p target type)
    (hgraph : next.graph = p.graph ∨ ∃ c, next.graph = p.graph.set target c) :
    (keepsPromise W).Advances p next := by
  rcases hgraph with hsame | ⟨written, hset⟩
  · exact keepsPromise_same h hsame
  · refine ⟨fun object c hwatched => ?_, fun object type hopen => ?_, fun _ _ => trivial⟩
    · have hother : target ≠ object := by
        rintro rfl
        exact hopen.2 c hwatched
      rw [hset, Graph.component?_set_of_ne _ hother]
      exact h object c hwatched
    · show object.index < next.graph.size ∧ _
      rw [hset, Graph.size_set]
      exact hopen

end Keeps

/-- **Watched objects stay as they are**, as a promise that every change keeps. -/
def keeps (W : ObjectId → Component → Prop) : PassInvariant where
  toPromise := keepsPromise W
  resolves {p} tag h := keepsPromise_same h (p.graph_resolveTag tag)
  constructs {p resolved tag type object graph} h hresolve hmade := by
    have hgraph := p.graph_resolveTag tag
    rw [hresolve] at hgraph
    obtain ⟨state, -, halloc⟩ := construct_eq_ok hmade
    cases halloc
    rw [hgraph]
    have hsize : p.graph.size < (p.graph.alloc { state with type := type }).2.size := by
      rw [Graph.size_alloc]
      exact Nat.lt_succ_self _
    refine ⟨⟨fun object c hwatched => ?_, fun object t hopen => ?_, fun _ _ => trivial⟩,
      ⟨hsize, fun c hwatched => ?_⟩, trivial⟩
    · have hthere := h object c hwatched
      exact (Graph.component?_alloc_of_lt p.graph _ (Graph.index_lt_size hthere)).trans hthere
    · exact ⟨Nat.lt_trans hopen.1 hsize, hopen.2⟩
    -- a new object is none that was there before
    · exact Nat.lt_irrefl _ (Graph.index_lt_size (h _ c hwatched))
  assigns h hopen _ hassign := keepsPromise_write h hopen (Pass.graph_of_assign hassign)
  declares key h _ := keepsPromise_same h rfl
  inserts {p object child type} h hopen _ :=
    keepsPromise_write h hopen (p.graph_insertChild object type child)

/-! ## A finished object -/

/-- Handing a finished object over keeps a promise. -/
theorem PassInvariant.deliver {I : PassInvariant} (position : Nat → Option Position) {p : Pass}
    {object : ObjectId} (start : Nat) {outer : List OpenElement} (hp : I.Holds p)
    (hopen : I.AllOpen p outer) (hmade : I.Made p object) :
    I.Keeps p (Hydration.deliver position p object start outer) := by
  cases outer with
  | nil => exact ⟨.refl hp, fun _ h => by cases h; trivial⟩
  | cons parent outer =>
    rw [Hydration.deliver]
    cases hproperty : parent.property with
    | some slot =>
      refine Keeps.content (.refl hp) (hopen.withProperty _ fun _ _ hslot hvalue given hgiven => ?_)
      cases hslot
      cases hvalue
      cases hgiven
      exact hmade
    | none =>
      have hinsert : I.Advances p (Hydration.insertObject position p parent start object).2 :=
        PassInvariant.insertObject position hp hopen.head hmade
      dsimp only
      rcases hinserted : Hydration.insertObject position p parent start object with
        ⟨error | ⟨⟩, next⟩
      · rw [hinserted] at hinsert
        exact Keeps.error hinsert _
      · rw [hinserted] at hinsert
        exact Keeps.content hinsert (hopen.advance hinsert)

/-- A run over a finished element and whatever follows it keeps a promise that holds behind the
element. -/
theorem PassInvariant.assemble_behind {I : PassInvariant} {position : Nat → Option Position}
    {p q : Pass} {stage : Stage} {given : Option ObjectId} {outer : List OpenElement}
    {element : Element} {object : ObjectId} (rest : NodeFeed)
    (hstep : Hydration.step position p stage element.place.start (.element element.tag) =
      Hydration.startElement position p given element.tag element.place.start outer)
    (hread : Hydration.evaluateElement position p given element = (.ok object, q))
    (hq : I.Holds q) (hopen : I.AllOpen q outer) (hmade : I.Made q object) :
    I.Advances q (Hydration.assemble position p stage (element.followedBy rest)).2 := by
  have hdeliver := deliver position element.place.start hq hopen hmade
  rw [← outcome_assembleAt, assembleAt_element position p stage given outer element rest hstep,
    hread, Located.andThen_ok]
  rcases hdelivered : Hydration.deliver position q object element.place.start outer with
    ⟨error | next, after⟩
  · rw [hdelivered] at hdeliver
    exact hdeliver.1
  · rw [hdelivered] at hdeliver
    rw [Outcome.arisingAt_ok, Located.andThen_ok, outcome_assembleAt]
    exact hdeliver.1.trans (assemble_underway position rest hdeliver.1.holds (hdeliver.2 next rfl))

/-! ## Between two nodes -/

namespace Progress.Reaches

variable {position : Nat → Option Position} {first last : Progress}

/-- The rest of a run ends as the whole run does. -/
theorem assemble_eq (h : first.Reaches position last) :
    assemble position first.pass first.stage first.unread =
      assemble position last.pass last.stage last.unread := by
  induction h with
  | start => rfl
  | node _ hstep ih =>
    rw [ih, assemble]
    simp only [hstep]

/-- A promise is kept up to any node: the run is before the root element, with the pass it started
with, or everything that is open is known. -/
theorem underway {I : PassInvariant} {root : Option ObjectId} (h : first.Reaches position last)
    (hstage : first.stage = .prolog root) (hp : I.Holds first.pass)
    (hgiven : ∀ given, root = some given → ∀ tag type resolved,
      first.pass.resolveTag tag = (.ok type, resolved) → I.Open resolved given type) :
    I.Holds last.pass ∧
      (last.stage = .prolog root ∧ last.pass = first.pass ∨ I.Underway last.pass last.stage) := by
  induction h with
  | start => exact ⟨hp, .inl ⟨hstage, rfl⟩⟩
  | @node p after stage next place node rest _ hstep ih =>
    obtain ⟨hholds, ⟨hprolog, hsame⟩ | hunderway⟩ := ih
    · simp only at hprolog hsame hholds
      subst hprolog hsame
      cases node with
      | text content => cases hstep; exact ⟨hholds, .inl ⟨rfl, rfl⟩⟩
      | blank => cases hstep; exact ⟨hholds, .inl ⟨rfl, rfl⟩⟩
      | endElement written => cases hstep
      | element tag =>
        have hstart := PassInvariant.startElement position place.start hholds
          (PassInvariant.AllOpen.none _)
          (fun given h type resolved => hgiven given h tag type resolved) fun h => absurd rfl h
        rw [step] at hstep
        rw [hstep] at hstart
        exact ⟨hstart.1.holds, .inr (hstart.2 next rfl)⟩
    · have hnext := PassInvariant.step position place.start node hholds hunderway
      rw [hstep] at hnext
      exact ⟨hnext.1.holds, .inr (hnext.2 next rfl)⟩

end Progress.Reaches

end MarkupForms.Hydration
