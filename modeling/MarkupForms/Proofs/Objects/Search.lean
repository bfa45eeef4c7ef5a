import Mathlib.Data.List.Forall2
import MarkupForms.Objects.Search
import MarkupForms.Proofs.Objects.Graph

/-!
# Searching level by level

What the search by id finds, without its bound: the first match on the first level that has one. And
a graph may be searched through what it was made from: if objects mirror the nodes of another
structure, child by child, then the object found mirrors the node found there.
-/

namespace MarkupForms

section Levels

variable {α β : Type} {R : α → β → Prop}

/-- The level `depth` levels below `level`, each in the order of the one above it. -/
def levelBelow (step : α → List α) (level : List α) : Nat → List α
  | 0 => level
  | depth + 1 => levelBelow step (level.flatMap step) depth

/-- The first match on the level `depth` levels below `level`, with none on the levels above it. -/
def FirstAt (step : α → List α) (p : α → Bool) (level : List α) (depth : Nat) (found : α) : Prop :=
  (levelBelow step level depth).find? p = some found ∧
    ∀ nearer < depth, (levelBelow step level nearer).find? p = none

theorem levelBelow_nil (step : α → List α) (depth : Nat) : levelBelow step [] depth = [] := by
  induction depth with
  | zero => rfl
  | succ depth ih => exact ih

theorem firstAt_zero {step : α → List α} {p : α → Bool} {level : List α} {found : α} :
    FirstAt step p level 0 found ↔ level.find? p = some found :=
  ⟨fun h => h.1, fun h => ⟨h, fun _ hlt => absurd hlt (Nat.not_lt_zero _)⟩⟩

theorem firstAt_succ {step : α → List α} {p : α → Bool} {level : List α} {depth : Nat} {found : α} :
    FirstAt step p level (depth + 1) found ↔
      level.find? p = none ∧ FirstAt step p (level.flatMap step) depth found := by
  constructor
  · rintro ⟨hfound, hnearer⟩
    refine ⟨hnearer 0 (Nat.succ_pos _), hfound, fun nearer hlt => ?_⟩
    exact hnearer (nearer + 1) (Nat.succ_lt_succ hlt)
  · rintro ⟨hnone, hfound, hnearer⟩
    refine ⟨hfound, fun nearer hlt => ?_⟩
    cases nearer with
    | zero => exact hnone
    | succ nearer => exact hnearer nearer (Nat.lt_of_succ_lt_succ hlt)

/-- A match on some level means a first match. -/
theorem exists_firstAt {step : α → List α} {p : α → Bool} {level : List α} {depth : Nat} {x : α}
    (hx : x ∈ levelBelow step level depth) (hp : p x = true) :
    ∃ nearest ≤ depth, ∃ found, FirstAt step p level nearest found := by
  induction depth generalizing level with
  | zero =>
    have hsome : (level.find? p).isSome = true := List.find?_isSome.2 ⟨x, hx, hp⟩
    obtain ⟨found, hfound⟩ := Option.isSome_iff_exists.1 hsome
    exact ⟨0, Nat.le_refl 0, found, firstAt_zero.2 hfound⟩
  | succ depth ih =>
    cases hlevel : level.find? p with
    | some found => exact ⟨0, Nat.zero_le _, found, firstAt_zero.2 hlevel⟩
    | none =>
      obtain ⟨nearest, hle, found, hfound⟩ := ih hx
      exact ⟨nearest + 1, Nat.succ_le_succ hle, found, firstAt_succ.2 ⟨hlevel, hfound⟩⟩

theorem mem_of_firstAt {step : α → List α} {p : α → Bool} {level : List α} {depth : Nat} {found : α}
    (h : FirstAt step p level depth found) : found ∈ levelBelow step level depth ∧ p found = true :=
  ⟨List.mem_of_find?_eq_some h.1, List.find?_some h.1⟩

/-! ## Two structures in step -/

theorem exists_rel_of_mem {as : List α} {bs : List β} (h : List.Forall₂ R as bs) {a : α}
    (ha : a ∈ as) :
    ∃ b ∈ bs, R a b := by
  induction h with
  | nil => cases ha
  | cons hab _ ih =>
    rcases List.mem_cons.1 ha with rfl | ha
    · exact ⟨_, List.mem_cons_self, hab⟩
    · obtain ⟨b, hb, hab⟩ := ih ha
      exact ⟨b, List.mem_cons_of_mem _ hb, hab⟩

theorem rel_find? {p : α → Bool} {q : β → Bool} (hpq : ∀ a b, R a b → p a = q b) {as : List α}
    {bs : List β} (h : List.Forall₂ R as bs) : Option.Rel R (as.find? p) (bs.find? q) := by
  induction h with
  | nil => exact .none
  | cons hab _ ih =>
    rw [List.find?_cons, List.find?_cons, hpq _ _ hab]
    split
    · exact .some hab
    · exact ih

theorem rel_levelBelow {step : α → List α} {step' : β → List β}
    (hstep : ∀ a b, R a b → List.Forall₂ R (step a) (step' b)) {as : List α} {bs : List β}
    (h : List.Forall₂ R as bs) (depth : Nat) :
    List.Forall₂ R (levelBelow step as depth) (levelBelow step' bs depth) := by
  induction depth generalizing as bs with
  | zero => exact h
  | succ depth ih => exact ih (List.rel_flatMap h fun {a b} hab => hstep a b hab)

theorem rel_firstAt {step : α → List α} {step' : β → List β}
    (hstep : ∀ a b, R a b → List.Forall₂ R (step a) (step' b)) {p : α → Bool} {q : β → Bool}
    (hpq : ∀ a b, R a b → p a = q b) {as : List α} {bs : List β} (h : List.Forall₂ R as bs)
    {depth : Nat} {b : β} (hb : FirstAt step' q bs depth b) :
    ∃ a, R a b ∧ FirstAt step p as depth a := by
  -- on each level both sides find related nodes or nothing, so the first level is the same
  have hfind : ∀ depth, Option.Rel R ((levelBelow step as depth).find? p)
      ((levelBelow step' bs depth).find? q) :=
    fun depth => rel_find? hpq (rel_levelBelow hstep h depth)
  obtain ⟨hfound, hnearer⟩ := hb
  have hnear : ∀ nearer < depth, (levelBelow step as nearer).find? p = none := by
    intro nearer hlt
    have hrel := hfind nearer
    rw [hnearer nearer hlt] at hrel
    cases hfst : (levelBelow step as nearer).find? p with
    | none => rfl
    | some a => rw [hfst] at hrel; cases hrel
  have hrel := hfind depth
  rw [hfound] at hrel
  cases hfst : (levelBelow step as depth).find? p with
  | none => rw [hfst] at hrel; cases hrel
  | some a =>
    rw [hfst] at hrel
    cases hrel with
    | some hab => exact ⟨a, hab, hfst, hnear⟩

end Levels

/-! ## The search by id -/

namespace Graph

theorem searchLevels_eq_some_iff {g : Graph} {id : String} {bound : Nat} {level : List ObjectId}
    {found : ObjectId} :
    g.searchLevels id bound level = some found ↔
      ∃ depth < bound, FirstAt g.nested (g.hasId id) level depth found := by
  induction bound generalizing level with
  | zero =>
    constructor
    · intro h; cases h
    · rintro ⟨depth, hlt, -⟩; exact absurd hlt (Nat.not_lt_zero depth)
  | succ bound ih =>
    rw [searchLevels]
    cases hlevel : level.find? (g.hasId id) with
    | some object =>
      constructor
      · intro h; cases h; exact ⟨0, Nat.succ_pos _, firstAt_zero.2 hlevel⟩
      · rintro ⟨depth, -, hfirst⟩
        cases depth with
        | zero => rw [firstAt_zero, hlevel] at hfirst; exact hfirst
        | succ depth => rw [firstAt_succ, hlevel] at hfirst; cases hfirst.1
    | none =>
      have hbelow : (∃ depth < bound + 1, FirstAt g.nested (g.hasId id) level depth found) ↔
          ∃ depth < bound, FirstAt g.nested (g.hasId id) (g.nextLevel level) depth found := by
        constructor
        · rintro ⟨depth, hlt, hfirst⟩
          cases depth with
          | zero => rw [firstAt_zero, hlevel] at hfirst; cases hfirst
          | succ depth => exact ⟨depth, Nat.lt_of_succ_lt_succ hlt, (firstAt_succ.1 hfirst).2⟩
        · rintro ⟨depth, hlt, hfirst⟩
          exact ⟨depth + 1, Nat.succ_lt_succ hlt, firstAt_succ.2 ⟨hlevel, hfirst⟩⟩
      rw [hbelow]
      dsimp only
      split
      · next hempty =>
        -- below an empty level there is nothing
        rw [List.isEmpty_iff] at hempty
        subst hempty
        constructor
        · intro h; cases h
        · rintro ⟨depth, -, hfirst⟩
          have hmem := (mem_of_firstAt hfirst).1
          rw [nextLevel, List.flatMap_nil, levelBelow_nil] at hmem
          cases hmem
      · exact ih

/-! ## Graphs that mirror another structure -/

/-- The objects related by `R` mirror nodes: what is nested in an object mirrors the children of its
node, in order, and was made after it. -/
structure Mirrors {β : Type} (g : Graph) (R : ObjectId → β → Prop) (children : β → List β) :
    Prop where
  nested {object : ObjectId} {node : β} : R object node →
    List.Forall₂ R (g.nested object) (children node)
  later {object : ObjectId} {node : β} : R object node →
    ∀ child ∈ g.nested object, object.index < child.index
  known {object : ObjectId} {node : β} : R object node → object.index < g.size

section Mirrored

variable {β : Type} {g : Graph} {R : ObjectId → β → Prop} {children : β → List β}

theorem Mirrors.exists_of_mem_nested (h : g.Mirrors R children) {object child : ObjectId} {node : β}
    (hobject : R object node) (hchild : child ∈ g.nested object) : ∃ below, R child below := by
  obtain ⟨below, -, hbelow⟩ := exists_rel_of_mem (h.nested hobject) hchild
  exact ⟨below, hbelow⟩

/-- Identities grow with the depth, so no level is deeper than there are objects. -/
theorem Mirrors.depth_lt (h : g.Mirrors R children) {level : List ObjectId}
    (hlevel : ∀ object ∈ level, ∃ node, R object node) {depth : Nat} {object : ObjectId}
    (hmem : object ∈ levelBelow g.nested level depth) : depth < g.size := by
  -- the least identity on a level is a bound that rises by one with each level
  have hgrow : ∀ depth level start, (∀ object ∈ level, start ≤ object.index ∧
      ∃ node, R object node) → ∀ object ∈ levelBelow g.nested level depth,
        start + depth ≤ object.index ∧ ∃ node, R object node := by
    intro depth
    induction depth with
    | zero => exact fun level start hlevel object hmem => hlevel object hmem
    | succ depth ih =>
      intro level start hlevel object hmem
      have hnext : ∀ child ∈ level.flatMap g.nested,
          start + 1 ≤ child.index ∧ ∃ node, R child node := by
        intro child hchild
        obtain ⟨parent, hparent, hchild⟩ := List.mem_flatMap.1 hchild
        obtain ⟨hle, node, hnode⟩ := hlevel parent hparent
        have hlater := h.later hnode child hchild
        exact ⟨by omega, h.exists_of_mem_nested hnode hchild⟩
      obtain ⟨hle, hnode⟩ := ih _ (start + 1) hnext object hmem
      exact ⟨by omega, hnode⟩
  obtain ⟨hle, node, hnode⟩ :=
    hgrow depth level 0 (fun o ho => ⟨Nat.zero_le _, hlevel o ho⟩) object hmem
  have hlt := h.known hnode
  omega

/-- **The search finds what the mirrored structure has**: the object of the first node, level by
level, that bears the id. -/
theorem Mirrors.findById_eq (h : g.Mirrors R children) {id : String} {p : β → Bool}
    (hid : ∀ object node, R object node → g.hasId id object = p node) {root : ObjectId} {top : β}
    (hroot : R root top) {depth : Nat} {node : β}
    (hfirst : FirstAt children p (children top) depth node) :
    ∃ object, R object node ∧ g.findById root id = some object := by
  obtain ⟨object, hobject, hfound⟩ :=
    rel_firstAt (fun _ _ hrel => h.nested hrel) hid (h.nested hroot) hfirst
  have hdepth : depth < g.size :=
    h.depth_lt (fun _ hchild => h.exists_of_mem_nested hroot hchild) (mem_of_firstAt hfound).1
  exact ⟨object, hobject, searchLevels_eq_some_iff.2 ⟨depth, by omega, hfound⟩⟩

/-- What the search finds is the object of such a node. -/
theorem Mirrors.of_findById (h : g.Mirrors R children) {id : String} {p : β → Bool}
    (hid : ∀ object node, R object node → g.hasId id object = p node) {root object : ObjectId}
    {top : β} (hroot : R root top) (hfound : g.findById root id = some object) :
    ∃ depth node, FirstAt children p (children top) depth node ∧ R object node := by
  obtain ⟨depth, -, hfirst⟩ := searchLevels_eq_some_iff.1 hfound
  have hflip : ∀ node object, flip R node object →
      List.Forall₂ (flip R) (children node) (g.nested object) :=
    fun node object hrel => (h.nested hrel).flip
  obtain ⟨node, hnode, hfirst'⟩ :=
    rel_firstAt hflip (fun node object hrel => (hid object node hrel).symm)
    (h.nested hroot).flip hfirst
  exact ⟨depth, node, hfirst', hnode⟩

end Mirrored

end Graph

end MarkupForms
