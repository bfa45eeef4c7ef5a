import Mathlib.Logic.Relation
import MarkupForms.Proofs.Objects.Graph
import MarkupForms.Proofs.OrderedMap

/-!
# References between objects

An object refers to its items, to the objects among its managed and its plain values, and to its
entries. The references of the whole graph are counted, each as often as it occurs; so a write
changes the count by what it adds and what it removes, wherever in the graph it takes place. A part
of the graph in which every object is referred to at most once, and by an older one, is a forest.
-/

namespace MarkupForms

/-- The objects among the plain values. -/
def ObjectState.plainObjects (state : ObjectState) : List ObjectId :=
  state.plainValues.values.filterMap Value.asObject?

/-- Everything that an object refers to: what is nested in it, and the objects among its plain
values. -/
def ObjectState.references (state : ObjectState) : List ObjectId :=
  state.nested ++ state.plainObjects

namespace ObjectState

variable {state : ObjectState}

theorem objectValues_of_store {store : PropertyStore} (h : state.store = some store) :
    state.objectValues = store.values.values.filterMap Value.asObject? := by
  rw [objectValues, h]

theorem objectValues_sublist_references (state : ObjectState) :
    state.objectValues.Sublist state.references :=
  ((List.sublist_append_right _ _).trans (List.sublist_append_left _ _)).trans
    (List.sublist_append_left _ _)

theorem plainObjects_subset_references {id : ObjectId} (h : id ∈ state.plainObjects) :
    id ∈ state.references :=
  List.mem_append_right _ h

/-- References are counted place by place. -/
theorem count_references (state : ObjectState) (x : ObjectId) :
    state.references.count x = (state.items.getD []).count x + state.objectValues.count x +
      ((state.entries.map (·.values)).getD []).count x + state.plainObjects.count x := by
  simp only [references, nested, children, List.count_append]

end ObjectState

namespace Graph

/-- Everything that an object refers to. -/
def references (g : Graph) (id : ObjectId) : List ObjectId :=
  ((g.component? id).map (·.references)).getD []

/-- How many references lead to an object, in the whole graph. -/
def indegree (g : Graph) (id : ObjectId) : Nat :=
  (g.components.toList.flatMap (·.references)).count id

/-- All that is referred to is there. -/
def Closed (g : Graph) : Prop :=
  ∀ o x, x ∈ g.references o → x.index < g.size

section Counting

variable {g : Graph} {id : ObjectId} {c : Component}

theorem references_eq (h : g.component? id = some c) : g.references id = c.references := by
  rw [references, h]
  rfl

theorem sublist_nested (g : Graph) (o : ObjectId) : (g.nested o).Sublist (g.references o) := by
  rw [Graph.nested, references]
  cases g.component? o with
  | none => exact List.Sublist.refl _
  | some c => exact List.sublist_append_left _ _

theorem sublist_children (g : Graph) (o : ObjectId) : (g.children o).Sublist (g.references o) := by
  refine List.Sublist.trans ?_ (sublist_nested g o)
  rw [Graph.children, Graph.nested]
  cases g.component? o with
  | none => exact List.Sublist.refl _
  | some c => exact List.sublist_append_left _ _

theorem references_of_size_le (h : g.size ≤ id.index) : g.references id = [] := by
  cases hc : g.component? id with
  | none => rw [references, hc]; rfl
  | some c => exact absurd (index_lt_size hc) (Nat.not_lt.2 h)

theorem references_set_of_ne {other : ObjectId} (hne : id ≠ other) (next : Component) :
    (g.set id next).references other = g.references other := by
  rw [references, references, component?_set_of_ne g hne]

theorem references_set_self (h : g.component? id = some c) (next : Component) :
    (g.set id next).references id = next.references :=
  references_eq (component?_set_self h next)

theorem indegree_alloc (g : Graph) (c : Component) (x : ObjectId) :
    (g.alloc c).2.indegree x = g.indegree x + c.references.count x := by
  show ((g.components.push c).toList.flatMap (·.references)).count x = _
  rw [Array.toList_push, List.flatMap_append, List.count_append, List.flatMap_singleton]
  rfl

theorem count_flatMap_set {α β : Type} [DecidableEq β] (f : α → List β) (x : β) {l : List α}
    {i : Nat} {a : α} (h : l[i]? = some a) (b : α) :
    ((l.set i b).flatMap f).count x + (f a).count x = (l.flatMap f).count x + (f b).count x := by
  induction l generalizing i with
  | nil => cases h
  | cons first rest ih =>
    cases i with
    | zero =>
      cases h
      simp only [List.set_cons_zero, List.flatMap_cons, List.count_append]
      omega
    | succ i =>
      have hrest := ih (i := i) (by simpa using h)
      simp only [List.set_cons_succ, List.flatMap_cons, List.count_append]
      omega

/-- A write adds the references that it writes and removes those that were there. -/
theorem indegree_set (h : g.component? id = some c) (next : Component) (x : ObjectId) :
    (g.set id next).indegree x + c.references.count x = g.indegree x + next.references.count x := by
  have hread : g.components.toList[id.index]? = some c := by
    rw [Array.getElem?_toList]
    exact h
  show ((g.components.setIfInBounds id.index next).toList.flatMap (·.references)).count x + _ = _
  rw [Array.toList_setIfInBounds]
  exact count_flatMap_set (fun own : Component => own.references) x hread next

/-- A component that refers to nothing, in the place of `c`. -/
def cleared (c : Component) : Component :=
  { ObjectState.bare c.implementation c.type.name with type := c.type }

/-- What one object refers to is part of all references. -/
theorem count_references_le (g : Graph) (id x : ObjectId) :
    (g.references id).count x ≤ g.indegree x := by
  cases hread : g.component? id with
  | none => rw [references, hread]; exact Nat.zero_le _
  | some c =>
    have hset := indegree_set hread (cleared c) x
    have hnone : (cleared c).references.count x = 0 := rfl
    rw [references_eq hread]
    omega

theorem indegree_pos {x : ObjectId} (h : x ∈ g.references id) : 0 < g.indegree x :=
  Nat.lt_of_lt_of_le (List.count_pos_iff.2 h) (g.count_references_le id x)

theorem exists_of_indegree_pos {x : ObjectId} (h : 0 < g.indegree x) : ∃ o, x ∈ g.references o := by
  obtain ⟨c, hmem, hx⟩ := List.mem_flatMap.1 (List.count_pos_iff.1 h)
  obtain ⟨i, hi⟩ := List.mem_iff_getElem?.1 hmem
  refine ⟨⟨i⟩, ?_⟩
  rw [references_eq (c := c) (by rw [component?, ← Array.getElem?_toList]; exact hi)]
  exact hx

/-- An object that is referred to once has one parent. -/
theorem parent_unique {x a b : ObjectId} (hx : g.indegree x ≤ 1) (ha : x ∈ g.references a)
    (hb : x ∈ g.references b) : a = b := by
  by_contra hne
  cases hread : g.component? a with
  | none => rw [references, hread] at ha; cases ha
  | some c =>
    -- without what `a` refers to, there is still the reference from `b`
    have hset := indegree_set hread (cleared c) x
    have hnone : (cleared c).references.count x = 0 := rfl
    have hown : 0 < c.references.count x := by
      rw [← references_eq hread]
      exact List.count_pos_iff.2 ha
    have hother : 0 < (g.set a (cleared c)).indegree x := by
      have hread' : x ∈ (g.set a (cleared c)).references b := by
        rw [references_set_of_ne hne]
        exact hb
      exact indegree_pos hread'
    omega

end Counting

/-! ## Forests -/

/-- From the object number `start` on, each object is referred to at most once, and refers to later
objects only; and all that is referred to is there. -/
structure Forest (g : Graph) (start : Nat) : Prop where
  closed : g.Closed
  single : ∀ x : ObjectId, start ≤ x.index → g.indegree x ≤ 1
  later : ∀ o x : ObjectId, start ≤ o.index → x ∈ g.references o → o.index < x.index

theorem Closed.indegree_eq_zero {g : Graph} (h : g.Closed) {x : ObjectId} (hx : g.size ≤ x.index) :
    g.indegree x = 0 := by
  by_contra hne
  obtain ⟨o, ho⟩ := exists_of_indegree_pos (Nat.pos_of_ne_zero hne)
  have hlt := h o x ho
  omega

/-- Where there are no objects yet, there is a forest. -/
theorem Closed.forest {g : Graph} (h : g.Closed) : g.Forest g.size where
  closed := h
  single x hx := by
    rw [h.indegree_eq_zero hx]
    exact Nat.zero_le 1
  later o x ho hx := by
    rw [references_of_size_le ho] at hx
    cases hx

namespace Forest

variable {g : Graph} {start : Nat}

/-- A new object that refers to nothing. -/
theorem alloc (h : g.Forest start) {c : Component} (hc : c.references = []) :
    (g.alloc c).2.Forest start := by
  have hrefs : ∀ o x, x ∈ (g.alloc c).2.references o → x ∈ g.references o := by
    intro o x hx
    rw [references, component?_alloc] at hx
    split at hx
    · have hnil : x ∈ c.references := hx
      rw [hc] at hnil
      cases hnil
    · exact hx
  refine ⟨fun o x hx => ?_, fun x hx => ?_, fun o x ho hx => h.later o x ho (hrefs o x hx)⟩
  · rw [size_alloc]
    exact Nat.lt_succ_of_lt (h.closed o x (hrefs o x hx))
  · rw [indegree_alloc, hc, List.count_nil]
    exact h.single x hx

/-- Writing to an object that comes to refer to at most one object more, which nothing refers to and
which is younger. -/
theorem write (h : g.Forest start) {target : ObjectId} {c next : Component}
    {added : Option ObjectId} (hread : g.component? target = some c)
    (hcount : ∀ x, next.references.count x ≤ c.references.count x + added.toList.count x)
    (hadded : ∀ child, added = some child →
      target.index < child.index ∧ child.index < g.size ∧ g.indegree child = 0) :
    (g.set target next).Forest start := by
  -- what the object refers to now, it referred to before, or it is what was added
  have hrefs : ∀ o x, x ∈ (g.set target next).references o →
      x ∈ g.references o ∨ (o = target ∧ added = some x) := by
    intro o x hx
    by_cases ho : target = o
    · subst ho
      rw [references_set_self hread] at hx
      have hle := hcount x
      have hpos := List.count_pos_iff.2 hx
      rw [references_eq hread]
      by_cases hold : x ∈ c.references
      · exact Or.inl hold
      · rw [List.count_eq_zero_of_not_mem hold] at hle
        have hmem : x ∈ added.toList := List.count_pos_iff.1 (by omega)
        exact Or.inr ⟨rfl, Option.mem_toList.1 hmem⟩
    · rw [references_set_of_ne ho] at hx
      exact Or.inl hx
  refine ⟨fun o x hx => ?_, fun x hx => ?_, fun o x ho hx => ?_⟩
  · rw [size_set]
    rcases hrefs o x hx with hold | ⟨-, hnew⟩
    · exact h.closed o x hold
    · exact (hadded x hnew).2.1
  · have hset := indegree_set hread next x
    have hle := hcount x
    by_cases hnew : added = some x
    · have hzero := (hadded x hnew).2.2
      rw [hnew, Option.toList_some, List.count_singleton_self] at hle
      omega
    · have hnone : added.toList.count x = 0 :=
        List.count_eq_zero_of_not_mem fun hmem => hnew (Option.mem_toList.1 hmem)
      have hsingle := h.single x hx
      omega
  · rcases hrefs o x hx with hold | ⟨rfl, hnew⟩
    · exact h.later o x ho hold
    · exact (hadded x hnew).1

/-- The references of a forest lead from older to younger objects, over any number of steps. -/
theorem index_lt_of_transGen (h : g.Forest start) {o x : ObjectId} (ho : start ≤ o.index)
    (hx : Relation.TransGen (fun a b => b ∈ g.references a) o x) : o.index < x.index := by
  induction hx with
  | single hx => exact h.later o _ ho hx
  | tail _ hx ih => exact Nat.lt_trans ih (h.later _ _ (Nat.le_of_lt (Nat.lt_of_le_of_lt ho ih)) hx)

/-- Where an object of a forest leads, there is an object, and not an older one. -/
theorem of_reflTransGen (h : g.Forest start) {o x : ObjectId} (ho : start ≤ o.index)
    (hlt : o.index < g.size) (hx : Relation.ReflTransGen (fun a b => b ∈ g.references a) o x) :
    start ≤ x.index ∧ x.index < g.size := by
  induction hx with
  | refl => exact ⟨ho, hlt⟩
  | @tail between x _ hx ih =>
    have hlater := h.later between x ih.1 hx
    exact ⟨by omega, h.closed between x hx⟩

end Forest

end Graph

end MarkupForms
