import MarkupForms.Objects.Graph

/-!
# Objects under writes

Which objects a graph holds after an allocation or a write, and what both keep of a property that
every object has.
-/

namespace MarkupForms

namespace Graph

theorem index_lt_size {g : Graph} {id : ObjectId} {c : Component} (h : g.component? id = some c) :
    id.index < g.size :=
  (Array.getElem?_eq_some_iff.1 h).1

@[simp] theorem size_alloc (g : Graph) (c : Component) : (g.alloc c).2.size = g.size + 1 :=
  Array.size_push c

theorem component?_alloc_new (g : Graph) (c : Component) :
    (g.alloc c).2.component? (g.alloc c).1 = some c := by
  rw [component?_alloc]
  exact if_pos rfl

/-- An allocation leaves the objects that there are alone. -/
theorem component?_alloc_of_lt (g : Graph) (c : Component) {id : ObjectId} (h : id.index < g.size) :
    (g.alloc c).2.component? id = g.component? id := by
  rw [component?_alloc, if_neg (Nat.ne_of_lt h)]

theorem component?_set_self {g : Graph} {id : ObjectId} {c : Component}
    (h : g.component? id = some c) (next : Component) :
    (g.set id next).component? id = some next := by
  rw [component?_set, if_pos rfl, h]
  rfl

theorem component?_set_of_ne (g : Graph) {id other : ObjectId} (h : id ≠ other) (c : Component) :
    (g.set id c).component? other = g.component? other := by
  rw [component?_set, if_neg h]

/-- The later of two writes to one object counts. -/
theorem set_set (g : Graph) (id : ObjectId) (c next : Component) :
    (g.set id c).set id next = g.set id next :=
  congrArg Graph.mk (Array.setIfInBounds_setIfInBounds c)

/-- Writing back what is there changes nothing. -/
theorem set_self {g : Graph} {id : ObjectId} {c : Component} (h : g.component? id = some c) :
    g.set id c = g := by
  obtain ⟨hlt, hc⟩ := Array.getElem?_eq_some_iff.1 h
  rw [set, Array.setIfInBounds, dif_pos hlt, ← hc, Array.set_getElem_self]

/-! ## Objects under a change -/

theorem modify_of_component? {g : Graph} {id : ObjectId} {c : Component}
    (h : g.component? id = some c) (f : Component → Component) :
    g.modify id f = g.set id (f c) := by
  rw [modify, h]

theorem modify_of_none {g : Graph} {id : ObjectId} (h : g.component? id = none)
    (f : Component → Component) :
    g.modify id f = g := by
  rw [modify, h]

/-- Replacing an object by itself changes nothing. -/
theorem modify_self (g : Graph) (id : ObjectId) : g.modify id (fun c => c) = g := by
  cases hread : g.component? id with
  | none => exact modify_of_none hread _
  | some c => rw [modify_of_component? hread, set_self hread]

theorem component?_modify (g : Graph) (id : ObjectId) (f : Component → Component)
    (other : ObjectId) :
    (g.modify id f).component? other = if id = other then (g.component? id).map f
      else g.component? other := by
  cases hread : g.component? id with
  | none =>
    rw [modify_of_none hread]
    split
    · next heq => rw [← heq, hread, Option.map_none]
    · rfl
  | some c =>
    rw [modify_of_component? hread, component?_set, hread, Option.map_some, Option.map_some]

@[simp] theorem size_modify (g : Graph) (id : ObjectId) (f : Component → Component) :
    (g.modify id f).size = g.size := by
  cases hread : g.component? id with
  | none => rw [modify_of_none hread]
  | some c => rw [modify_of_component? hread, size_set]

end Graph

/-! ## A property of every object -/

/-- Every object of the graph has the property. -/
def Graph.All (Q : Component → Prop) (g : Graph) : Prop :=
  ∀ id c, g.component? id = some c → Q c

namespace Graph.All

variable {Q : Component → Prop} {g : Graph}

theorem alloc (h : g.All Q) {c : Component} (hc : Q c) : (g.alloc c).2.All Q := by
  intro id other hother
  rw [Graph.component?_alloc] at hother
  split at hother
  · cases hother; exact hc
  · exact h id other hother

theorem set (h : g.All Q) {c : Component} (hc : Q c) (id : ObjectId) : (g.set id c).All Q := by
  intro read other hother
  rw [Graph.component?_set] at hother
  split at hother
  · obtain ⟨_, _, rfl⟩ := Option.map_eq_some_iff.1 hother
    exact hc
  · exact h read other hother

theorem modify (h : g.All Q) {f : Component → Component} (hf : ∀ c, Q c → Q (f c)) (id : ObjectId) :
    (g.modify id f).All Q := by
  unfold Graph.modify
  cases hc : g.component? id with
  | none => exact h
  | some c => exact h.set (hf c (h id c hc)) id

end Graph.All

end MarkupForms
