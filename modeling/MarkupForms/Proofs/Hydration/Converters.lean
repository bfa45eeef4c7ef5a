import MarkupForms.Proofs.Hydration.Growth
import MarkupForms.Proofs.Hydration.Isolation
import MarkupForms.Proofs.Objects.WalkOnce

/-!
# Converters stand aside

A binding converts through a resource, and an object is made a resource when its element has been
read to the end. So while an element is open no resource leads to its object, nor does any
converter, and what is read later never comes to stand below one. Hence no converter of a hydrated
graph leads to the object with the binding (`convertersApart_of_load`).
-/

namespace MarkupForms

/-- Where one object is written, a new way leads to what an old one leads to, or passes by the
written object. -/
theorem Graph.reach_of_set {g : Graph} {start : Nat} {target : ObjectId} {next : Component}
    {x o : ObjectId} (h : Relation.ReflTransGen ((g.set target next).Refers start) x o) :
    Relation.ReflTransGen (g.Refers start) x o ∨
    Relation.ReflTransGen (g.Refers start) x target := by
  induction h with
  | refl => exact Or.inl .refl
  | @tail a b _ hab ih =>
    rcases ih with hold | hpast
    · by_cases htarget : target = a
      · subst htarget
        exact Or.inr hold
      · rw [Refers, references_set_of_ne htarget] at hab
        exact Or.inl (hold.tail hab)
    · exact Or.inr hpast

theorem ObjectState.usesResource_of_mem_converters {state : ObjectState} {x : ObjectId}
    (h : x ∈ state.converters) :
    state.UsesResource x := by
  cases hstore : state.store with
  | none =>
    rw [converters, hstore] at h
    cases h
  | some store =>
    rw [converters, hstore] at h
    obtain ⟨bound, hbound, hconverter⟩ := List.mem_filterMap.1 h
    obtain ⟨⟨name, bound⟩, hentry, rfl⟩ := List.mem_map.1 hbound
    exact Or.inl ⟨store, name, bound, hstore, hentry, hconverter⟩

namespace Hydration

open Markup

/-! ## What serves bindings -/

/-- The object is a resource of the pass, or a converter of an object from the number `start` on. -/
def Serves (start : Nat) (p : Pass) (x : ObjectId) : Prop :=
  (∃ key, (key, x) ∈ p.resources.toList) ∨
    ∃ id c, start ≤ id.index ∧ p.graph.component? id = some c ∧ x ∈ c.converters

/-- Nothing that serves bindings leads to the object. -/
def Aside (start : Nat) (p : Pass) (o : ObjectId) : Prop :=
  ∀ x, Serves start p x → ¬ Relation.ReflTransGen (p.graph.Refers start) x o

/-- What serves bindings is there, and no converter leads to the object with the binding. -/
structure Served (start : Nat) (p : Pass) : Prop where
  size : start ≤ p.graph.size
  known (x : ObjectId) : Serves start p x → x.index < p.graph.size
  apart : p.graph.ConvertersApart start

/-- From `before` to `after` the pass has gone on, and what was aside still is. -/
structure Serving (start : Nat) (before after : Pass) : Prop extends Served start after where
  aside (o : ObjectId) : start ≤ o.index → o.index < before.graph.size → Aside start before o →
    Aside start after o

namespace Serving

variable {start : Nat} {p q r : Pass}

theorem refl (h : Served start p) : Serving start p p :=
  ⟨h, fun _ _ _ haside => haside⟩

theorem trans (h : Serving start p q) (h' : Serving start q r)
    (hsize : p.graph.size ≤ q.graph.size) :
    Serving start p r :=
  ⟨h'.toServed, fun o ho hlt haside => h'.aside o ho (hlt.trans_le hsize) (h.aside o ho hlt haside)⟩

/-- Neither objects nor resources change. -/
theorem same (h : Serving start p q) (hgraph : r.graph = q.graph)
    (hresources : r.resources = q.resources) :
    Serving start p r := by
  have hserves : ∀ x, Serves start r x ↔ Serves start q x := by
    intro x
    rw [Serves, Serves, hgraph, hresources]
  refine ⟨⟨hgraph ▸ h.size, fun x hx => ?_, hgraph ▸ h.apart⟩, fun o ho hlt haside x hx => ?_⟩
  · rw [hgraph]
    exact h.known x ((hserves x).1 hx)
  · rw [hgraph]
    exact h.aside o ho hlt haside x ((hserves x).1 hx)

/-- An object that is aside is written to; its converters were its own before, or are resources. -/
theorem write (h : Serving start p q) {target : ObjectId} (htarget : start ≤ target.index)
    (haside : Aside start q target) {c next : Component}
    (hread : q.graph.component? target = some c)
    (hconverters : ∀ x ∈ next.converters, x ∈ c.converters ∨ ∃ key, (key, x) ∈ q.resources.toList)
    (hgraph : r.graph = q.graph.set target next) (hresources : r.resources = q.resources) :
    Serving start p r := by
  have hwritten : ∀ id own, start ≤ id.index → r.graph.component? id = some own →
      ∀ x ∈ own.converters,
      Serves start q x ∧ (id = target ∨ q.graph.component? id = some own) := by
    intro id own hid hown x hx
    rw [hgraph] at hown
    by_cases hsame : target = id
    · subst hsame
      rw [Graph.component?_set_self hread] at hown
      cases hown
      refine ⟨?_, Or.inl rfl⟩
      rcases hconverters x hx with hold | hresource
      · exact Or.inr ⟨target, c, hid, hread, hold⟩
      · exact Or.inl hresource
    · rw [Graph.component?_set_of_ne q.graph hsame] at hown
      exact ⟨Or.inr ⟨id, own, hid, hown, hx⟩, Or.inr hown⟩
  have hserves : ∀ x, Serves start r x → Serves start q x := by
    rintro x (hresource | ⟨id, own, hid, hown, hx⟩)
    · exact Or.inl (hresources ▸ hresource)
    · exact (hwritten id own hid hown x hx).1
  have hfree : ∀ x o, Serves start q x → ¬ Relation.ReflTransGen (q.graph.Refers start) x o →
      ¬ Relation.ReflTransGen (r.graph.Refers start) x o := by
    intro x o hx hnot hreach
    rw [hgraph] at hreach
    exact (Graph.reach_of_set hreach).elim hnot (haside x hx)
  have hsize : r.graph.size = q.graph.size := by rw [hgraph, Graph.size_set]
  refine ⟨⟨hsize ▸ h.size, fun x hx => hsize ▸ h.known x (hserves x hx),
    fun id own x hid hown hx => ?_⟩,
    fun o ho hlt hbefore x hx => ?_⟩
  · obtain ⟨hserved, hid' | hold⟩ := hwritten id own hid hown x hx
    · subst hid'
      exact ⟨hsize ▸ h.known x hserved, hfree x id hserved (haside x hserved)⟩
    · obtain ⟨hknown, hnot⟩ := h.apart id own x hid hold hx
      exact ⟨hsize ▸ hknown, hfree x id hserved hnot⟩
  · exact hfree x o (hserves x hx) (h.aside o ho hlt hbefore x (hserves x hx))

/-- Objects that were made since become resources. -/
theorem share (h : Serving start p q) (hforest : q.graph.Forest start) (hgraph : r.graph = q.graph)
    (hresources : ∀ key x, (key, x) ∈ r.resources.toList → (key, x) ∈ q.resources.toList ∨
      (p.graph.size ≤ x.index ∧ x.index < q.graph.size)) :
    Serving start p r := by
  have hserves : ∀ x, Serves start r x → Serves start q x ∨
      (p.graph.size ≤ x.index ∧ x.index < q.graph.size) := by
    rintro x (⟨key, hmem⟩ | hconverter)
    · exact (hresources key x hmem).imp_left fun hold => Or.inl ⟨key, hold⟩
    · exact Or.inl (Or.inr (hgraph ▸ hconverter))
  refine ⟨⟨hgraph ▸ h.size, fun x hx => ?_, hgraph ▸ h.apart⟩, fun o ho hlt hbefore x hx => ?_⟩
  · rw [hgraph]
    exact (hserves x hx).elim (h.known x) And.right
  · rw [hgraph]
    rcases hserves x hx with hold | ⟨hnew, -⟩
    · exact h.aside o ho hlt hbefore x hold
    · exact fun hreach => Nat.not_lt.2 (hnew.trans (hforest.index_le hreach)) hlt

end Serving

/-- A new object refers to nothing and converts through objects older than the pass; nothing that
serves bindings leads to it. -/
theorem Served.alloc {start : Nat} {p r : Pass} (h : Served start p)
    (hforest : p.graph.Forest start) {c : Component} (halone : c.references = [])
    (hconverters : ∀ x ∈ c.converters, x.index < start) (hgraph : r.graph = (p.graph.alloc c).2)
    (hresources : r.resources = p.resources) :
    Serving start p r ∧ Aside start r ⟨p.graph.size⟩ := by
  have hrefers : ∀ a b, r.graph.Refers start a b → p.graph.Refers start a b := by
    intro a b hab
    refine ⟨hab.1, ?_⟩
    have hmem : b ∈ r.graph.references a := hab.2
    rw [hgraph, Graph.references, Graph.component?_alloc] at hmem
    split at hmem
    · have hnone : b ∈ c.references := hmem
      rw [halone] at hnone
      cases hnone
    · exact hmem
  have hreach : ∀ x o, Relation.ReflTransGen (r.graph.Refers start) x o →
      Relation.ReflTransGen (p.graph.Refers start) x o := Relation.ReflTransGen.mono hrefers
  -- an object older than the pass leads to none of the pass
  have hold : ∀ x o, x.index < start → start ≤ o.index →
      ¬ Relation.ReflTransGen (p.graph.Refers start) x o := by
    intro x o hx ho hway
    rcases Relation.ReflTransGen.cases_head hway with rfl | ⟨b, hfirst, -⟩
    · omega
    · exact Nat.not_lt.2 hfirst.1 hx
  have hserves : ∀ x, Serves start r x → Serves start p x ∨ x.index < start := by
    rintro x (⟨key, hmem⟩ | ⟨id, own, hid, hown, hx⟩)
    · exact Or.inl (Or.inl ⟨key, hresources ▸ hmem⟩)
    · rw [hgraph, Graph.component?_alloc] at hown
      split at hown
      · cases hown
        exact Or.inr (hconverters x hx)
      · exact Or.inl (Or.inr ⟨id, own, hid, hown, hx⟩)
  have hsize : r.graph.size = p.graph.size + 1 := by rw [hgraph, Graph.size_alloc]
  have hbefore := h.size
  have hknown : ∀ x, Serves start r x → x.index < p.graph.size := fun x hx =>
    (hserves x hx).elim (h.known x) fun hlt => hlt.trans_le h.size
  refine ⟨⟨⟨by omega, fun x hx => ?_, fun id own x hid hown hx => ?_⟩,
    fun o ho hlt haside x hx hway => ?_⟩,
    fun x hx hway => ?_⟩
  · have hlt := hknown x hx
    omega
  · rw [hgraph, Graph.component?_alloc] at hown
    split at hown
    · cases hown
      have hlt := hconverters x hx
      exact ⟨by omega, fun hway => hold x id hlt hid (hreach x id hway)⟩
    · obtain ⟨hlt, hnot⟩ := h.apart id own x hid hown hx
      exact ⟨by omega, fun hway => hnot (hreach x id hway)⟩
  · rcases hserves x hx with hserved | hlt'
    · exact haside x hserved (hreach x o hway)
    · exact hold x o hlt' ho (hreach x o hway)
  · rcases Relation.ReflTransGen.cases_tail (hreach x _ hway) with heq | ⟨parent, -, hlast⟩
    · exact Nat.lt_irrefl _ (heq ▸ hknown x hx)
    · exact Nat.lt_irrefl _ (hforest.closed parent _ hlast.2)

/-! ## Assignments and insertions -/

section Writes

variable {start : Nat} {before p next : Pass} {target : ObjectId} {type : TypeInfo}

theorem converters_setBinding (c : Component) {store : PropertyStore}
    (hstore : c.store = some store) (property : ManagedProperty) (binding : Binding) {x : ObjectId}
    (hx :
      x ∈ ObjectState.converters
        { c.toObjectState with store := some (store.setBinding property binding) }) :
    x ∈ c.converters ∨ binding.converter = some x := by
  obtain ⟨bound, hbound, hconverter⟩ := List.mem_filterMap.1 hx
  obtain ⟨⟨name, bound⟩, hentry, rfl⟩ := List.mem_map.1 hbound
  rcases OrderedMap.mem_insert hentry with hnew | hold
  · cases hnew
    exact Or.inr hconverter
  · refine Or.inl ?_
    rw [ObjectState.converters, hstore]
    exact List.mem_filterMap.2 ⟨bound, List.mem_map.2 ⟨_, hold, rfl⟩, hconverter⟩

theorem converters_setValue (c : Component) {store : PropertyStore} (hstore : c.store = some store)
    (property : ManagedProperty) (value : Value) :
    ObjectState.converters { c.toObjectState with store := some (store.setValue property value) } =
      c.converters := by
  rw [ObjectState.converters, ObjectState.converters, hstore]
  rfl

/-- An assignment to an object that is aside. What becomes a resource was made since. -/
theorem Serving.assign {raw : RawValue} {name : String} (h : Serving start before p)
    (htarget : start ≤ target.index) (hforest : p.graph.Forest start)
    (haside : Aside start p target)
    (hraw : ∀ object, raw.object? = some object → GrownBy start before object p)
    (hassign : p.assign target type name raw = .ok next) (hbefore : start ≤ before.graph.size) :
    Serving start before next := by
  cases Pass.assigned_of_assign hassign with
  | shared container entries _ hcontainer hentries =>
    subst hcontainer
    have hgrown := hraw container rfl
    refine h.share hforest rfl fun key x hmem =>
      (OrderedMap.mem_insertAll hmem).symm.imp_right fun hentry => ?_
    obtain ⟨c, hread, hkeyed⟩ := Option.bind_eq_some_iff.1 hentries
    have hrefers : x ∈ p.graph.references container := by
      rw [Graph.references_eq hread, ObjectState.references, ObjectState.nested, hkeyed]
      exact List.mem_append_left _ (List.mem_append_right _ (List.mem_map.2 ⟨_, hentry, rfl⟩))
    have hlater := hforest.later container x (hbefore.trans hgrown.later) hrefers
    exact ⟨hgrown.later.trans hlater.le, hforest.closed container x hrefers⟩
  | dangling => exact h
  | bound c store property binding text _ _ _ _ hbinding hread hstore =>
    refine h.write htarget haside hread (fun x hx => ?_) rfl rfl
    exact (converters_setBinding c hstore property binding hx).imp_right
      (Pass.mem_resources_of_readBinding hbinding)
  | managed c store property value _ _ _ _ hread hstore =>
    refine h.write htarget haside hread (fun x hx => Or.inl ?_) rfl rfl
    exact converters_setValue c hstore property value ▸ hx
  | plain c state kind value _ _ _ _ _ hread hwrite =>
    rw [Pass.setPlain_eq_ok hwrite]
    refine h.write htarget haside hread (fun x hx => ?_) rfl rfl
    exact Or.inl hx

/-- An insertion into an object that is aside. The child was made since. -/
theorem Serving.insert {child : ObjectId} (h : Serving start before p)
    (hgrown : GrownBy start before child p) (htarget : start ≤ target.index)
    (hlt : target.index < before.graph.size) (haside : Aside start p target)
    (hinsert : p.insertChild target type child = (.ok (), next)) : Serving start before next := by
  have hnext : Grown start before next := Grown.insert hgrown hlt hinsert
  have hinserted := p.inserted_insertChild target type child
  rw [hinsert] at hinserted
  cases hinserted with
  | item c items _ hread hitems =>
    refine h.write htarget haside hread (fun x hx => ?_) rfl rfl
    exact Or.inl hx
  | entry c entries key resources _ _ hread hentries hresources =>
    have hwritten : Serving start before (p.update target
        { c with entries := some (entries.insert key child) }) := by
      refine h.write htarget haside hread (fun x hx => ?_) rfl rfl
      exact Or.inl hx
    refine hwritten.share hnext.forest rfl fun name x hmem => ?_
    rw [hresources] at hmem
    rcases OrderedMap.mem_insert hmem with hnew | hold
    · cases hnew
      refine Or.inr ⟨hgrown.later, ?_⟩
      rw [Pass.update, Graph.size_set]
      exact hgrown.known
    · exact Or.inl hold

end Writes

/-! ## Tags -/

section Elements

variable {start : Nat} {position : Nat → Option Position}

theorem Serving.applyAttributes {p next : Pass} {object : ObjectId} {type : TypeInfo}
    (h : Served start p) (hforest : p.graph.Forest start) (hobject : start ≤ object.index)
    (hknown : object.index < p.graph.size) (haside : Aside start p object)
    (attrs : List Markup.Attribute)
    (happly : p.applyAttributes object type attrs = (.ok (), next)) : Serving start p next := by
  induction attrs generalizing p with
  | nil => cases happly; exact .refl h
  | cons attr attrs ih =>
    rw [Pass.applyAttributes] at happly
    cases hattr : p.applyAttribute object type attr with
    | error error => rw [hattr] at happly; cases happly
    | ok between =>
      rw [hattr] at happly
      have hgrown : Grown start p between :=
        (Grown.refl hforest).applyAttributes hknown [attr]
          (by rw [Pass.applyAttributes, hattr]; rfl)
      have hbetween : Serving start p between := by
        unfold Pass.applyAttribute at hattr
        cases hrole : Pass.roleOf attr.name with
        | property name =>
          rw [hrole] at hattr
          exact (Serving.refl h).assign hobject hforest haside (fun _ hnone => by
            cases hnone) hattr h.size
        | key => rw [hrole] at hattr; cases hattr; exact (Serving.refl h).same rfl rfl
        | ignored => rw [hrole] at hattr; cases hattr; exact .refl h
      have hstill := hbetween.aside object hobject hknown haside
      exact hbetween.trans (ih hbetween.toServed hgrown.forest
        (hknown.trans_le hgrown.size) hstill happly) hgrown.size

/-- The object of a tag is aside. -/
theorem serving_openElement {p q : Pass} {tag : StartTag} {place : Nat} {opened : OpenElement}
    (hnew : p.resolver.catalog.NewObjectsAlone)
    (hsupplied : ∀ x, p.resolver.catalog.Supplies x → x.index < start)
    (hforest : p.graph.Forest start) (h : Served start p)
    (hopen : openElement position p none tag place = (.ok opened, q)) :
    Serving start p q ∧ Aside start q opened.object := by
  obtain ⟨type, resolved, taken, made, hresolve, htake, happly, rfl⟩ := openElement_eq_ok hopen
  have hgraph := p.graph_resolveTag tag
  have hresources : (p.resolveTag tag).2.resources = p.resources := rfl
  rw [hresolve] at hgraph hresources
  rw [Pass.takeObject] at htake
  cases hconstruct : construct resolved.graph type with
  | error error => rw [hconstruct] at htake; cases htake
  | ok new =>
    obtain ⟨object, graph⟩ := new
    rw [hconstruct] at htake
    cases htake
    obtain ⟨state, hstate, halloc⟩ := construct_eq_ok hconstruct
    rw [hgraph] at halloc
    cases halloc
    have hcontains : p.resolver.catalog.Contains type := Pass.contains_of_resolveTag hresolve
    have halone : ({ state with type := type } : Component).references = [] :=
      hnew type state hcontains hstate
    have hconverters : ∀ x ∈ ({ state with type := type } : Component).converters,
        x.index < start := by
      intro x hx
      exact hsupplied x ⟨type, state, hcontains, hstate,
        ObjectState.usesResource_of_mem_converters hx⟩
    obtain ⟨hmade, haside⟩ := h.alloc hforest halone hconverters
      (r := { resolved with graph := (p.graph.alloc { state with type := type }).2 }) rfl hresources
    have hsize := Graph.size_alloc p.graph { state with type := type }
    have hlt : p.graph.size < (p.graph.alloc { state with type := type }).2.size := by
      rw [hsize]
      exact Nat.lt_succ_self _
    have happlied :=
      Serving.applyAttributes hmade.toServed (hforest.alloc halone) h.size hlt haside _ happly
    exact ⟨hmade.trans happlied hlt.le, happlied.aside _ h.size hlt haside⟩

/-! ## The induction -/

mutual

theorem serving_evaluateElement {p q : Pass} {object : ObjectId}
    (hnew : p.resolver.catalog.NewObjectsAlone) (hsupplied : ∀ x, p.resolver.catalog.Supplies x →
      x.index < start) (hforest : p.graph.Forest start)
    (hp : Served start p) :
    (element : Element) → evaluateElement position p none element = (.ok object, q) →
    Serving start p q
  | .selfClosed _ tag _, h => by
    rw [evaluateElement, Located.andThen_eq_ok] at h
    obtain ⟨opened, between, hopen, hend⟩ := h
    cases hend
    exact (serving_openElement hnew hsupplied hforest hp (Outcome.arisingAt_eq_ok.1 hopen)).1
  | .enclosing _ tag _ contents _, h => by
    rw [evaluateElement, Located.andThen_eq_ok] at h
    obtain ⟨opened, between, hopen, hinside⟩ := h
    rw [Located.andThen_eq_ok] at hinside
    obtain ⟨⟨⟩, after, hcontents, hend⟩ := hinside
    cases hend
    have hopened := grownBy_openElement hnew hforest (Outcome.arisingAt_eq_ok.1 hopen)
    obtain ⟨hserving, haside⟩ := serving_openElement hnew hsupplied hforest hp
      (Outcome.arisingAt_eq_ok.1 hopen)
    exact hserving.trans (serving_evaluateContents (hopened.catalog ▸ hnew)
      (hopened.catalog ▸ hsupplied)
      hopened.forest hserving.toServed (hp.size.trans hopened.later) hopened.known haside contents
      hcontents) hopened.size

/-- While the contents are evaluated, the object of the parent stays aside. -/
theorem serving_evaluateContents {p q : Pass} {parent : OpenElement}
    (hnew : p.resolver.catalog.NewObjectsAlone) (hsupplied : ∀ x, p.resolver.catalog.Supplies x →
      x.index < start) (hforest : p.graph.Forest start)
    (hp : Served start p) (hparent : start ≤ parent.object.index)
    (hknown : parent.object.index < p.graph.size) (haside : Aside start p parent.object) :
    (contents : Contents) → evaluateContents position p parent contents = (.ok (), q) →
    Serving start p q
  | .none, h => by cases h; exact .refl hp
  | .text _ _ rest, h =>
    serving_evaluateContents hnew hsupplied hforest hp hparent hknown haside rest h
  | .blank _ rest, h =>
    serving_evaluateContents hnew hsupplied hforest hp hparent hknown haside rest h
  | .element child rest, h => by
    obtain ⟨here, hposition⟩ := position_of_evaluateContents h
    simp only [evaluateContents, hposition] at h
    have hrest : ∀ next, Grown start p next → Serving start p next →
        evaluateContents position next parent rest = (.ok (), q) → Serving start p q := by
      intro next hnext hserving hrest
      exact hserving.trans (serving_evaluateContents (hnext.catalog ▸ hnew)
        (hnext.catalog ▸ hsupplied) hnext.forest
        hserving.toServed hparent (hknown.trans_le hnext.size)
        (hserving.aside parent.object hparent hknown haside) rest hrest) hnext.size
    split at h
    · cases hnamed : namedProperty? parent.tag child.tag with
      | none => rw [hnamed] at h; cases h
      | some property =>
        simp only [hnamed, Located.andThen_eq_ok] at h
        obtain ⟨value, between, hvalue, ⟨⟩, next, hassign, hbehind⟩ := h
        obtain ⟨hgrown, hobject⟩ := grown_evaluateValue hnew hforest child hvalue
        have hserving := serving_evaluateValue hnew hsupplied hforest hp child hvalue
        have hassigned := assignProperty_eq_ok (Outcome.arisingAt_eq_ok.1 hassign)
        have hstill := hserving.aside parent.object hparent hknown haside
        exact hrest next (hgrown.assign hknown hobject hassigned)
          (hserving.assign hparent hgrown.forest hstill hobject hassigned hp.size) hbehind
    · simp only [Located.andThen_eq_ok] at h
      obtain ⟨object, between, hchild, ⟨⟩, next, hinsert, hbehind⟩ := h
      have hgrown := grownBy_evaluateElement hnew hforest child hchild
      have hserving := serving_evaluateElement hnew hsupplied hforest hp child hchild
      have hinserted := insertObject_eq_ok (Outcome.arisingAt_eq_ok.1 hinsert)
      have hstill := hserving.aside parent.object hparent hknown haside
      exact hrest next (Grown.insert hgrown hknown hinserted)
        (hserving.insert hgrown hparent hknown hstill hinserted) hbehind

theorem serving_evaluateValue {p q : Pass} {raw : RawValue}
    (hnew : p.resolver.catalog.NewObjectsAlone) (hsupplied : ∀ x, p.resolver.catalog.Supplies x →
      x.index < start) (hforest : p.graph.Forest start)
    (hp : Served start p) :
    (element : Element) → evaluateValue position p element = (.ok raw, q) → Serving start p q
  | .selfClosed _ _ _, h => by cases h
  | .enclosing _ _ _ contents _, h => serving_evaluateSingle hnew hsupplied hforest hp contents h

theorem serving_evaluateSingle {p q : Pass} {raw : RawValue} {tag : StartTag} {behind : Place}
    (hnew : p.resolver.catalog.NewObjectsAlone)
    (hsupplied : ∀ x, p.resolver.catalog.Supplies x → x.index < start)
    (hforest : p.graph.Forest start) (hp : Served start p) :
    (contents : Contents) → evaluateSingle position p tag behind contents = (.ok raw, q) →
    Serving start p q
  | .none, h => by cases h
  | .blank _ rest, h => serving_evaluateSingle hnew hsupplied hforest hp rest h
  | .text _ content rest, h => by
    obtain ⟨rfl, rfl⟩ := onlyValue_eq_ok h
    exact .refl hp
  | .element child rest, h => by
    rw [evaluateSingle] at h
    split at h
    · cases h
    · rw [Located.andThen_eq_ok] at h
      obtain ⟨object, between, hchild, honly⟩ := h
      obtain ⟨rfl, rfl⟩ := onlyValue_eq_ok honly
      exact serving_evaluateElement hnew hsupplied hforest hp child hchild

end

end Elements

/-- **Converters stand aside** in what a load makes: none leads to the object with the binding, if
what new objects bring along was there before. -/
theorem convertersApart_of_load {g after : Graph} {catalog : Catalog} {localModule : Option String}
    {text : String} {root : ObjectId} (hclosed : g.Closed) (hnew : catalog.NewObjectsAlone)
    (hsupplied : ∀ x, catalog.Supplies x → x.index < g.size)
    (h : LoadRequest.load ⟨g, catalog, localModule, none⟩ text = (.ok root, after)) :
    after.ConvertersApart g.size := by
  obtain ⟨doc, -, q, hevaluate, rfl⟩ := exists_evaluation_of_load h
  have hstart : Served g.size (LoadRequest.pass ⟨g, catalog, localModule, none⟩) := by
    have hnone : ∀ id c, g.size ≤ id.index → g.component? id = some c → False :=
      fun id c hid hread => Nat.not_lt.2 hid (Graph.index_lt_size hread)
    refine ⟨Nat.le_refl _, ?_, fun id c x hid hread _ => (hnone id c hid hread).elim⟩
    rintro x (⟨key, hmem⟩ | ⟨id, c, hid, hread, -⟩)
    · cases hmem
    · exact (hnone id c hid hread).elim
  exact (serving_evaluateElement hnew hsupplied hclosed.forest hstart doc.root hevaluate).apart

end Hydration

end MarkupForms
