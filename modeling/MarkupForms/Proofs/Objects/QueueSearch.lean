import MarkupForms.Proofs.Objects.ContextSet
import MarkupForms.Proofs.Objects.Traversal

/-!
# The search with a queue

The search by id as a loop: an object leaves the queue at its front, and what is nested in it joins
at the end. At any moment the queue holds the rest of one level and the beginning of the next, and
nothing is remembered of the objects that have left it. Where nothing is nested in itself the loop
ends all the same, for a level has fewer objects below it than the one above, and what it finds is
what the search by levels finds: the first match on the nearest level that has one.
-/

namespace MarkupForms

theorem levelBelow_flatMap {α : Type} (step : α → List α) (level : List α) (depth : Nat) :
    levelBelow step (level.flatMap step) depth = (levelBelow step level depth).flatMap step := by
  induction depth generalizing level with
  | zero => rfl
  | succ depth ih => exact ih (level.flatMap step)

namespace Graph

/-! ## Depths -/

/-- The objects `depth` levels below `root`: at depth 0 the root itself, and one level deeper what
is nested in the objects of the level before it, list after list. An object occurs once for each
path that leads to it. -/
def atDepth (g : Graph) (root : ObjectId) : Nat → List ObjectId
  | 0 => [root]
  | depth + 1 => (g.atDepth root depth).flatMap g.nested

theorem levelBelow_nested (g : Graph) (root : ObjectId) (depth : Nat) :
    levelBelow g.nested (g.nested root) depth = g.atDepth root (depth + 1) := by
  induction depth with
  | zero => exact (List.flatMap_singleton g.nested root).symm
  | succ depth ih => rw [levelBelow, levelBelow_flatMap, ih]; rfl

/-- What is at a depth is below the root. -/
theorem transGen_of_mem_atDepth {g : Graph} {root x : ObjectId} {depth : Nat}
    (hx : x ∈ g.atDepth root (depth + 1)) : Relation.TransGen g.Nests root x := by
  induction depth generalizing x with
  | zero =>
    rw [atDepth, atDepth, List.flatMap_singleton] at hx
    exact .single hx
  | succ depth ih =>
    obtain ⟨parent, hparent, hnested⟩ := List.mem_flatMap.1 hx
    exact .tail (ih hparent) hnested

/-- The first match below the root, by depths. -/
theorem firstAt_nested {g : Graph} {id : String} {root found : ObjectId} {depth : Nat} :
    FirstAt g.nested (g.hasId id) (g.nested root) depth found ↔
      (g.atDepth root (depth + 1)).find? (g.hasId id) = some found ∧
        ∀ nearer ≥ 1, nearer < depth + 1 → ∀ x ∈ g.atDepth root nearer, g.hasId id x = false := by
  have hnone : ∀ nearer, (levelBelow g.nested (g.nested root) nearer).find? (g.hasId id) = none ↔
      ∀ x ∈ g.atDepth root (nearer + 1), g.hasId id x = false := by
    intro nearer
    simp only [levelBelow_nested, List.find?_eq_none, Bool.not_eq_true]
  rw [FirstAt, levelBelow_nested]
  refine and_congr_right fun _ => ⟨fun h nearer hpos hlt => ?_, fun h nearer hlt => ?_⟩
  · obtain ⟨nearer, rfl⟩ := Nat.exists_eq_add_of_le' hpos
    exact (hnone nearer).1 (h nearer (Nat.lt_of_succ_lt_succ hlt))
  · exact (hnone nearer).2 (h (nearer + 1) (Nat.succ_pos nearer) (Nat.succ_lt_succ hlt))

section Span

open Classical

/-- The number of objects that are an object or below it. -/
noncomputable def span (g : Graph) (id : ObjectId) : Nat :=
  ((Finset.range g.size).filter fun i => Relation.ReflTransGen g.Nests id ⟨i⟩).card

theorem span_le_size (g : Graph) (id : ObjectId) : g.span id ≤ g.size :=
  (Finset.card_filter_le _ _).trans_eq (Finset.card_range g.size)

theorem Nests.index_lt {g : Graph} {a b : ObjectId} (h : g.Nests a b) : a.index < g.size := by
  by_contra hsize
  have hnone : g.component? a = none := Array.getElem?_eq_none (Nat.le_of_not_lt hsize)
  rw [Nests, Graph.nested, hnone] at h
  cases h

/-- An object spans itself, and what is nested in it does not span it again. -/
theorem span_lt {g : Graph} (hacyclic : ∀ x, ¬ Relation.TransGen g.Nests x x) {a b : ObjectId}
    (h : g.Nests a b) : g.span b < g.span a := by
  apply Finset.card_lt_card
  rw [Finset.ssubset_iff_of_subset]
  · refine ⟨a.index, Finset.mem_filter.2 ⟨Finset.mem_range.2 h.index_lt, .refl⟩, fun hmem => ?_⟩
    exact hacyclic a (.head' h (Finset.mem_filter.1 hmem).2)
  · intro i hmem
    obtain ⟨hlt, hbelow⟩ := Finset.mem_filter.1 hmem
    exact Finset.mem_filter.2 ⟨hlt, .head h hbelow⟩

end Span

section Acyclic

variable {g : Graph} (hacyclic : ∀ x, ¬ Relation.TransGen g.Nests x x)

include hacyclic

theorem span_add_depth_le {level : List ObjectId} {depth : Nat} {x : ObjectId}
    (hx : x ∈ levelBelow g.nested level depth) : ∃ a ∈ level, g.span x + depth ≤ g.span a := by
  induction depth generalizing level with
  | zero => exact ⟨x, hx, Nat.le_refl _⟩
  | succ depth ih =>
    obtain ⟨b, hb, hle⟩ := ih hx
    obtain ⟨a, ha, hab⟩ := List.mem_flatMap.1 hb
    have hlt : g.span b < g.span a := span_lt hacyclic hab
    exact ⟨a, ha, by omega⟩

/-- No path is longer than there are objects. -/
theorem levelBelow_eq_nil_of_acyclic (level : List ObjectId) {depth : Nat}
    (hdepth : g.size < depth) :
    levelBelow g.nested level depth = [] := by
  rw [List.eq_nil_iff_forall_not_mem]
  intro x hx
  obtain ⟨a, -, hle⟩ := span_add_depth_le hacyclic hx
  have hsize := g.span_le_size a
  omega

/-- The bound on the number of levels does not matter. -/
theorem findById_eq_some_iff {root found : ObjectId} {id : String} :
    g.findById root id = some found ↔
      ∃ depth, FirstAt g.nested (g.hasId id) (g.nested root) depth found := by
  rw [findById, searchLevels_eq_some_iff]
  refine ⟨fun ⟨depth, _, hfirst⟩ => ⟨depth, hfirst⟩, fun ⟨depth, hfirst⟩ => ⟨depth, ?_, hfirst⟩⟩
  by_contra hdepth
  have hmem := (mem_of_firstAt hfirst).1
  rw [levelBelow_eq_nil_of_acyclic hacyclic (g.nested root) (by omega)] at hmem
  cases hmem

/-- Nothing is found exactly if there is nothing to find. -/
theorem findById_eq_none_iff {root : ObjectId} {id : String} :
    g.findById root id = none ↔ ∀ depth ≥ 1, ∀ x ∈ g.atDepth root depth, g.hasId id x = false := by
  rw [Option.eq_none_iff_forall_ne_some]
  constructor
  · intro hnone depth hdepth x hx
    obtain ⟨depth, rfl⟩ := Nat.exists_eq_add_of_le' hdepth
    rw [← levelBelow_nested] at hx
    cases hid : g.hasId id x with
    | false => rfl
    | true =>
      obtain ⟨nearest, -, found, hfirst⟩ := exists_firstAt hx hid
      exact absurd ((findById_eq_some_iff hacyclic).2 ⟨nearest, hfirst⟩) (hnone found)
  · intro hall found hfound
    obtain ⟨depth, hfirst⟩ := (findById_eq_some_iff hacyclic).1 hfound
    obtain ⟨hmem, hid⟩ := mem_of_firstAt hfirst
    rw [levelBelow_nested] at hmem
    rw [hall (depth + 1) (Nat.succ_pos depth) found hmem] at hid
    cases hid

end Acyclic

/-! ## The queue -/

/-- The search of a queue. It ends with the first object that bears the id, or with nothing once the
queue is used up; `none` if it has not ended after `bound` objects. -/
def searchQueue (g : Graph) (id : String) : Nat → List ObjectId → Option (Option ObjectId)
  | _, [] => some none
  | 0, _ :: _ => none
  | bound + 1, object :: queue =>
    if g.hasId id object then some (some object)
    else g.searchQueue id bound (queue ++ g.nested object)

theorem searchQueue_nil (g : Graph) (id : String) (bound : Nat) :
    g.searchQueue id bound [] = some none := by
  cases bound <;> rfl

/-- **The invariant of the queue.** It begins with what is left of one level, and goes on with what
the level's first objects have put behind it. When the level has been used up without a match, the
whole next level stands there. -/
theorem searchQueue_level (g : Graph) (id : String) (bound : Nat) (level next : List ObjectId) :
    g.searchQueue id (level.length + bound) (level ++ next) =
      match level.find? (g.hasId id) with
      | some object => some (some object)
      | none => g.searchQueue id bound (next ++ level.flatMap g.nested) := by
  induction level generalizing next with
  | nil =>
    rw [List.length_nil, Nat.zero_add, List.nil_append, List.flatMap_nil, List.append_nil]; rfl
  | cons object level ih =>
    rw [List.length_cons, Nat.succ_add, List.cons_append, searchQueue, List.find?_cons]
    cases hid : g.hasId id object with
    | true => rfl
    | false =>
      rw [if_neg Bool.false_ne_true, List.append_assoc, ih, List.flatMap_cons, List.append_assoc]

/-- With as many steps as there are objects on the levels, the queue has been through all of them,
if there is nothing below. -/
theorem searchQueue_eq_find? {g : Graph} (id : String) {depth bound : Nat} {level : List ObjectId}
    (hend : levelBelow g.nested level depth = [])
    (hbound : (breadthFirst g.nested depth level).length ≤ bound) :
    g.searchQueue id bound level = some ((breadthFirst g.nested depth level).find?
      (g.hasId id)) := by
  induction depth generalizing level bound with
  | zero =>
    cases hend
    exact searchQueue_nil g id bound
  | succ depth ih =>
    rw [breadthFirst, List.length_append] at hbound
    obtain ⟨left, rfl⟩ := Nat.exists_eq_add_of_le (Nat.le_of_add_right_le hbound)
    have hlevel := searchQueue_level g id left level []
    rw [List.append_nil, List.nil_append] at hlevel
    rw [hlevel, breadthFirst, List.find?_append]
    cases level.find? (g.hasId id) with
    | some object => rfl
    | none => exact ih hend (Nat.le_of_add_le_add_left hbound)

/-- **The search finds the nearest match, and the first of the nearest.** Take any graph in which
nothing is nested in itself, however many paths lead to an object, and any root and id. Taking the
objects from a queue comes to an end, with what the search by levels finds. This is nothing exactly
when no object at depth 1 or more bears the id; it is an object exactly when that is the first match
at some depth, in the order of the objects above it, and there is no match at depths nearer to the
root. It is never the root. -/
theorem findById_exact {g : Graph} (hacyclic : ∀ x, ¬ Relation.TransGen g.Nests x x)
    (root : ObjectId) (id : String) :
    (∃ enough, ∀ bound ≥ enough,
        g.searchQueue id bound (g.nested root) = some (g.findById root id)) ∧
      (g.findById root id = none ↔ ∀ depth ≥ 1, ∀ x ∈ g.atDepth root depth, g.hasId id x = false) ∧
      (∀ found, g.findById root id = some found ↔
        ∃ depth ≥ 1, (g.atDepth root depth).find? (g.hasId id) = some found ∧
          ∀ nearer ≥ 1, nearer < depth → ∀ x ∈ g.atDepth root nearer, g.hasId id x = false) ∧
      g.findById root id ≠ some root := by
  refine ⟨?_, findById_eq_none_iff hacyclic, fun found => ?_, fun hroot => ?_⟩
  · have hend := levelBelow_eq_nil_of_acyclic hacyclic (g.nested root) (Nat.lt_succ_self g.size)
    refine ⟨(breadthFirst g.nested (g.size + 1) (g.nested root)).length, fun bound hbound => ?_⟩
    rw [searchQueue_eq_find? id hend hbound, findById, searchLevels_eq_find?]
  · rw [findById_eq_some_iff hacyclic]
    constructor
    · rintro ⟨depth, hfirst⟩
      exact ⟨depth + 1, Nat.succ_pos depth, firstAt_nested.1 hfirst⟩
    · rintro ⟨depth, hpos, hfirst⟩
      obtain ⟨depth, rfl⟩ := Nat.exists_eq_add_of_le' hpos
      exact ⟨depth, firstAt_nested.2 hfirst⟩
  · obtain ⟨depth, hfirst⟩ := (findById_eq_some_iff hacyclic).1 hroot
    have hmem := (mem_of_firstAt hfirst).1
    rw [levelBelow_nested] at hmem
    exact hacyclic root (transGen_of_mem_atDepth hmem)

/-- A label with an id. -/
def labelWithId (id : String) : Component :=
  { Forms.newLabel with
    plainValues := Forms.newLabel.plainValues.insert "Id" (.text id)
    type := Forms.label }

/-- A stack around another one, which it holds twice, with a label in the inner stack and then one
beside it. -/
def twoLabels : Graph :=
  ⟨#[itemStack [⟨1⟩], itemStack [⟨2⟩, ⟨4⟩, ⟨2⟩], itemStack [⟨3⟩], labelWithId "dup",
    labelWithId "dup"]⟩

/-- The label in the outer stack is found, although the other one comes first in the document and in
the list of items. -/
theorem findById_exact_twoLabels :
    (∀ x, ¬ Relation.TransGen twoLabels.Nests x x) ∧
      (∃ enough, ∀ bound ≥ enough, twoLabels.searchQueue "dup" bound (twoLabels.nested ⟨0⟩) =
        some (some ⟨4⟩)) ∧
      twoLabels.atDepth ⟨0⟩ 2 = [⟨2⟩, ⟨4⟩, ⟨2⟩] ∧ twoLabels.atDepth ⟨0⟩ 3 = [⟨3⟩, ⟨3⟩] ∧
      twoLabels.hasId "dup" ⟨3⟩ = true ∧ twoLabels.findById ⟨3⟩ "dup" = none := by
  have hacyclic : ∀ x, ¬ Relation.TransGen twoLabels.Nests x x :=
    acyclic_of_later (by decide +kernel)
  obtain ⟨hends, -, hfound, -⟩ := findById_exact hacyclic ⟨0⟩ "dup"
  have hshallow : twoLabels.findById ⟨0⟩ "dup" = some ⟨4⟩ :=
    (hfound ⟨4⟩).2 ⟨2, by decide, rfl, fun nearer hpos hlt x hx => by
      obtain rfl : nearer = 1 := by omega
      rw [List.mem_singleton.1 hx]
      rfl⟩
  rw [hshallow] at hends
  refine ⟨hacyclic, hends, rfl, rfl, rfl, ?_⟩
  -- the root itself is no candidate
  refine (findById_exact hacyclic ⟨3⟩ "dup").2.1.2 fun depth hpos x hx => ?_
  obtain ⟨depth, rfl⟩ := Nat.exists_eq_add_of_le' hpos
  rw [← levelBelow_nested] at hx
  rw [show twoLabels.nested ⟨3⟩ = [] from rfl, levelBelow_nil] at hx
  cases hx

end Graph

end MarkupForms
