import MarkupForms.Proofs.Hydration.Assignment
import MarkupForms.Proofs.Hydration.Invariant
import MarkupForms.Proofs.Hydration.Resolver
import MarkupForms.Proofs.Objects.Graph

/-!
# What the reading of an element leaves alone

A new element writes to the objects that it makes and to no other: whatever the pass held before,
objects and keys, it holds afterwards.
-/

namespace MarkupForms.Hydration

open Markup

/-- No key is declared on an object yet to be made. -/
def Pass.NewUnkeyed (p : Pass) : Prop :=
  ∀ object : ObjectId, p.graph.size ≤ object.index → p.keys.key? object = none

/-- What `before` held, `after` holds unchanged; and no key is declared on an object yet to be
made. -/
structure LeftAlone (before after : Pass) : Prop where
  catalog : after.resolver.catalog = before.resolver.catalog
  size : before.graph.size ≤ after.graph.size
  component {object : ObjectId} : object.index < before.graph.size →
    after.graph.component? object = before.graph.component? object
  key {object : ObjectId} : object.index < before.graph.size →
    after.keys.key? object = before.keys.key? object
  unknown {object : ObjectId} : after.graph.size ≤ object.index → after.keys.key? object = none

namespace LeftAlone

variable {before after : Pass}

theorem refl (h : before.NewUnkeyed) : LeftAlone before before :=
  ⟨rfl, Nat.le_refl _, fun _ => rfl, fun _ => rfl, fun {object} => h object⟩

/-- Writing to a later object. -/
theorem set (h : LeftAlone before after) {target : ObjectId}
    (htarget : before.graph.size ≤ target.index) (c : Component) {next : Pass}
    (hcatalog : next.resolver = after.resolver) (hgraph : next.graph = after.graph.set target c)
    (hkeys : next.keys = after.keys) :
    LeftAlone before next where
  catalog := by rw [hcatalog]; exact h.catalog
  size := by rw [hgraph, Graph.size_set]; exact h.size
  component {object} hobject := by
    rw [hgraph, Graph.component?_set_of_ne _ (by rintro rfl; omega) c]
    exact h.component hobject
  key hobject := by rw [hkeys]; exact h.key hobject
  unknown hobject := by
    rw [hgraph, Graph.size_set] at hobject
    rw [hkeys]
    exact h.unknown hobject

/-- Making an object. -/
theorem alloc (h : LeftAlone before after) (c : Component) {next : Pass}
    (hcatalog : next.resolver.catalog = after.resolver.catalog)
    (hgraph : next.graph = (after.graph.alloc c).2) (hkeys : next.keys = after.keys) :
    LeftAlone before next where
  catalog := hcatalog.trans h.catalog
  size := by
    have hsize := h.size
    rw [hgraph, Graph.size_alloc]
    omega
  component {object} hobject := by
    rw [hgraph, Graph.component?_alloc_of_lt _ c (Nat.lt_of_lt_of_le hobject h.size)]
    exact h.component hobject
  key hobject := by rw [hkeys]; exact h.key hobject
  unknown hobject := by
    rw [hgraph, Graph.size_alloc] at hobject
    rw [hkeys]
    exact h.unknown (Nat.le_of_succ_le hobject)

theorem declare (h : LeftAlone before after) {target : ObjectId}
    (htarget : before.graph.size ≤ target.index) (hknown : target.index < after.graph.size)
    (key : String) : LeftAlone before { after with keys := after.keys.declare target key } where
  catalog := h.catalog
  size := h.size
  component := h.component
  key {object} hobject := by
    rw [KeyTable.key?_declare, if_neg (by rintro rfl; omega)]
    exact h.key hobject
  unknown {object} hobject := by
    rw [KeyTable.key?_declare, if_neg (by rintro rfl; exact absurd hknown (Nat.not_lt.2 hobject))]
    exact h.unknown hobject

/-- Taking the key of a later object. -/
theorem erase (h : LeftAlone before after) {target : ObjectId}
    (htarget : before.graph.size ≤ target.index) (resources : ResourceTable) :
    LeftAlone before { after with keys := after.keys.erase target, resources := resources } where
  catalog := h.catalog
  size := h.size
  component := h.component
  key {object} hobject := by
    rw [KeyTable.key?_erase, if_neg (by rintro rfl; omega)]
    exact h.key hobject
  unknown {object} hobject := by
    rw [KeyTable.key?_erase]
    split
    · rfl
    · exact h.unknown hobject

end LeftAlone

/-- The object was made after `before`. -/
def MadeSince (before p : Pass) (object : ObjectId) : Prop :=
  before.graph.size ≤ object.index ∧ object.index < p.graph.size

/-- **What is left alone**, as a promise: every object that is open was made later. -/
def leavesAlone (before : Pass) : PassInvariant where
  Holds := LeftAlone before
  Open p object _ := MadeSince before p object
  Made := MadeSince before
  resolves {p} tag h :=
    ⟨⟨(p.catalog_resolveTag tag).trans h.catalog, h.size, h.component, h.key, h.unknown⟩,
      fun _ _ hopen => hopen, fun _ hmade => hmade⟩
  constructs {p resolved tag type object graph} h hresolve hmade := by
    have hcatalog := p.catalog_resolveTag tag
    have hgraph := p.graph_resolveTag tag
    have hkeys := p.keys_resolveTag tag
    rw [hresolve] at hcatalog hgraph hkeys
    obtain ⟨state, -, halloc⟩ := construct_eq_ok hmade
    cases halloc
    rw [hgraph]
    have hnew : before.graph.size ≤ p.graph.size ∧
        p.graph.size < (p.graph.alloc { state with type := type }).2.size := by
      rw [Graph.size_alloc]
      exact ⟨h.size, Nat.lt_succ_self _⟩
    have hlater : ∀ o : ObjectId, MadeSince before p o → before.graph.size ≤ o.index ∧
        o.index < (p.graph.alloc { state with type := type }).2.size := by
      intro o ho
      rw [Graph.size_alloc]
      exact ⟨ho.1, Nat.lt_succ_of_lt ho.2⟩
    exact ⟨⟨h.alloc _ hcatalog rfl hkeys, fun o _ => hlater o, hlater⟩, hnew, hnew⟩
  assigns {p next object type name raw} h hopen _ hassign := by
    -- three of the five ways write to the object, and all three in one component
    have hlater : ∀ c (o : ObjectId), MadeSince before p o →
        MadeSince before (p.update object c) o := by
      intro c o ho
      rw [MadeSince, Pass.update, Graph.size_set]
      exact ho
    have hwrite : ∀ c, (Promise.mk (LeftAlone before) (fun p object _ => MadeSince before p object)
        (MadeSince before)).Advances p (p.update object c) :=
      fun c => ⟨h.set hopen.1 c rfl rfl rfl, fun o _ => hlater c o, hlater c⟩
    cases Pass.assigned_of_assign hassign with
    | shared =>
      exact ⟨⟨h.catalog, h.size, h.component, h.key, h.unknown⟩, fun _ _ ho => ho, fun _ ho => ho⟩
    | dangling => exact ⟨h, fun _ _ ho => ho, fun _ ho => ho⟩
    | bound => exact hwrite _
    | managed => exact hwrite _
    | plain => exact hwrite _
  declares key h hopen := ⟨h.declare hopen.1 hopen.2 key, fun _ _ ho => ho, fun _ ho => ho⟩
  inserts {p object child type} h hopen hchild := by
    -- the child was made later, too, so that taking its key leaves the earlier keys alone
    have hinserted := p.inserted_insertChild object type child
    generalize p.insertChild object type child = outcome at hinserted
    have hlater : ∀ c (o : ObjectId), MadeSince before p o →
        before.graph.size ≤ o.index ∧ o.index < (p.graph.set object c).size := by
      intro c o ho
      rw [Graph.size_set]
      exact ho
    cases hinserted with
    | item c items =>
      exact ⟨h.set hopen.1 _ rfl rfl rfl, fun o _ => hlater _ o, hlater _⟩
    | entry c entries key resources =>
      have hset : LeftAlone before
          (p.update object { c with entries := some (entries.insert key child) }) :=
        h.set hopen.1 _ rfl rfl rfl
      exact ⟨hset.erase hchild.1 resources, fun o _ => hlater _ o, hlater _⟩
    | refused _ keys hkeys =>
      rcases hkeys with rfl | rfl
      · exact ⟨h, fun _ _ ho => ho, fun _ ho => ho⟩
      · exact ⟨h.erase hchild.1 p.resources, fun _ _ ho => ho, fun _ ho => ho⟩

end MarkupForms.Hydration
