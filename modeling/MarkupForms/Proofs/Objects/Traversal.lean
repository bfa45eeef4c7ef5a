import Mathlib.Data.List.Nodup
import MarkupForms.Objects.Outline
import MarkupForms.Proofs.Objects.Forest
import MarkupForms.Proofs.Objects.Search

/-!
# Traversals of a forest

The search by id is a search in a list, that of the levels below the root, and the outline prints
another one, each object before what is below it. Neither traversal remembers where it has been. In
a forest neither has to: both lists are free of duplicates, and they end before the bounds of the
two definitions do.
-/

namespace MarkupForms

/-! ## The two orders -/

section Orders

variable {α : Type}

/-- The first `bound` levels from `level` on, one after the other. -/
def breadthFirst (step : α → List α) : Nat → List α → List α
  | 0, _ => []
  | bound + 1, level => level ++ breadthFirst step bound (level.flatMap step)

/-- `x` and what is below it with the depth of each, each before what is below it, of at most
`bound` levels. -/
def depthFirst (step : α → List α) : Nat → Nat → α → List (Nat × α)
  | 0, _, _ => []
  | bound + 1, depth, x => (depth, x) :: (step x).flatMap (depthFirst step bound (depth + 1))

theorem breadthFirst_nil (step : α → List α) (bound : Nat) : breadthFirst step bound [] = [] := by
  induction bound with
  | zero => rfl
  | succ bound ih => exact ih

theorem breadthFirst_succ (step : α → List α) (bound : Nat) (level : List α) :
    breadthFirst step (bound + 1) level =
      breadthFirst step bound level ++ levelBelow step level bound := by
  induction bound generalizing level with
  | zero => exact List.append_nil level
  | succ bound ih =>
    rw [breadthFirst, ih, breadthFirst, List.append_assoc]
    rfl

theorem exists_of_mem_breadthFirst {step : α → List α} {bound : Nat} {level : List α} {x : α}
    (h : x ∈ breadthFirst step bound level) :
    ∃ a ∈ level, Relation.ReflTransGen (fun a b => b ∈ step a) a x := by
  induction bound generalizing level with
  | zero => cases h
  | succ bound ih =>
    rcases List.mem_append.1 h with hlevel | hbelow
    · exact ⟨x, hlevel, .refl⟩
    · obtain ⟨b, hb, hreach⟩ := ih hbelow
      obtain ⟨a, ha, hab⟩ := List.mem_flatMap.1 hb
      exact ⟨a, ha, .head hab hreach⟩

theorem reflTransGen_of_mem_depthFirst {step : α → List α} {bound depth : Nat} {x y : α}
    (h : y ∈ (depthFirst step bound depth x).map Prod.snd) :
    Relation.ReflTransGen (fun a b => b ∈ step a) x y := by
  induction bound generalizing depth x with
  | zero => cases h
  | succ bound ih =>
    rw [depthFirst, List.map_cons, List.mem_cons, List.map_flatMap] at h
    rcases h with rfl | hbelow
    · exact .refl
    · obtain ⟨child, hchild, hy⟩ := List.mem_flatMap.1 hbelow
      exact .head hchild (ih hy)

end Orders

namespace Graph

/-- **The search by id is a search in the levels**, whatever the graph. -/
theorem searchLevels_eq_find? (g : Graph) (id : String) (bound : Nat) (level : List ObjectId) :
    g.searchLevels id bound level = (breadthFirst g.nested bound level).find? (g.hasId id) := by
  induction bound generalizing level with
  | zero => rfl
  | succ bound ih =>
    rw [searchLevels, breadthFirst, List.find?_append]
    cases hlevel : level.find? (g.hasId id) with
    | some object => rfl
    | none =>
      dsimp only
      split
      · next hempty =>
        rw [List.isEmpty_iff] at hempty
        rw [hempty, List.flatMap_nil, breadthFirst_nil]
        rfl
      · exact ih (g.nextLevel level)

/-- **The outline prints the objects one by one**, whatever the graph. -/
theorem outlineLevels_eq_join (g : Graph) (bound depth : Nat) (id : ObjectId) :
    g.outlineLevels bound depth id =
      String.join ((depthFirst g.children bound depth id).map fun line =>
        g.outlineLine line.1 line.2) := by
  induction bound generalizing depth id with
  | zero => exact String.join_nil.symm
  | succ bound ih =>
    have hbelow : ∀ children : List ObjectId,
        String.join (children.map (g.outlineLevels bound (depth + 1))) =
          String.join ((children.flatMap (depthFirst g.children bound (depth + 1))).map
            fun line => g.outlineLine line.1 line.2) := by
      intro children
      induction children with
      | nil => rfl
      | cons child children hchildren =>
        rw [List.map_cons, String.join_cons, ih, hchildren, List.flatMap_cons, List.map_append,
          String.join_append]
    rw [outlineLevels, hbelow, depthFirst, List.map_cons, String.join_cons]

/-! ## Forests -/

/-- The object number `start` or a later one refers to another. -/
def Refers (g : Graph) (start : Nat) (a b : ObjectId) : Prop :=
  start ≤ a.index ∧ b ∈ g.references a

namespace Forest

variable {g : Graph} {start : Nat}

/-- In a forest everything has one parent. -/
theorem leftUnique (h : g.Forest start) : Relator.LeftUnique (g.Refers start) := by
  intro a b x ha hb
  have hlater := h.later a x ha.1 ha.2
  exact parent_unique (h.single x (Nat.le_of_lt (Nat.lt_of_le_of_lt ha.1 hlater))) ha.2 hb.2

theorem index_le (h : g.Forest start) {a b : ObjectId}
    (hab : Relation.ReflTransGen (g.Refers start) a b) :
    a.index ≤ b.index := by
  induction hab with
  | refl => exact Nat.le_refl _
  | tail _ hstep ih => exact Nat.le_trans ih (Nat.le_of_lt (h.later _ _ hstep.1 hstep.2))

theorem index_lt (h : g.Forest start) {a b : ObjectId}
    (hab : Relation.TransGen (g.Refers start) a b) :
    a.index < b.index := by
  obtain ⟨between, hfirst, hrest⟩ := Relation.TransGen.head'_iff.1 hab
  exact Nat.lt_of_lt_of_le (h.later a between hfirst.1 hfirst.2) (h.index_le hrest)

theorem lt_size_of_reach (h : g.Forest start) {a b : ObjectId} (ha : a.index < g.size)
    (hab : Relation.ReflTransGen (g.Refers start) a b) : b.index < g.size := by
  rcases Relation.ReflTransGen.cases_tail hab with rfl | ⟨parent, -, hstep⟩
  · exact ha
  · exact h.closed parent b hstep.2

/-- Two objects above a third stand above one another. -/
theorem total (h : g.Forest start) {a b x : ObjectId}
    (ha : Relation.ReflTransGen (g.Refers start) a x)
    (hb : Relation.ReflTransGen (g.Refers start) b x) :
    Relation.ReflTransGen (g.Refers start) a b ∨ Relation.ReflTransGen (g.Refers start) b a := by
  have hunique : Relator.RightUnique (Function.swap (g.Refers start)) :=
    fun x a b ha hb => h.leftUnique ha hb
  rcases Relation.ReflTransGen.total_of_right_unique hunique (Relation.reflTransGen_swap.2 ha)
    (Relation.reflTransGen_swap.2 hb) with hab | hba
  · exact Or.inr (Relation.reflTransGen_swap.1 hab)
  · exact Or.inl (Relation.reflTransGen_swap.1 hba)

/-- An object below what `o` refers to does not stand above it, and if `o` refers to it, it is that
object. -/
theorem eq_of_sibling (h : g.Forest start) {o a b : ObjectId} (ha : g.Refers start o a)
    (hb : g.Refers start o b) (hab : Relation.ReflTransGen (g.Refers start) a b) : a = b := by
  rcases Relation.ReflTransGen.cases_tail hab with heq | ⟨parent, hparent, hstep⟩
  · exact heq.symm
  · have ho := h.leftUnique hstep hb
    subst ho
    have hle := h.index_le hparent
    have hlt := h.later parent a ha.1 ha.2
    omega

/-- What is below different children of an object is different. -/
theorem eq_of_below (h : g.Forest start) {o a b x : ObjectId} (ha : g.Refers start o a)
    (hb : g.Refers start o b) (hax : Relation.ReflTransGen (g.Refers start) a x)
    (hbx : Relation.ReflTransGen (g.Refers start) b x) : a = b := by
  rcases h.total hax hbx with hab | hba
  · exact h.eq_of_sibling ha hb hab
  · exact (h.eq_of_sibling hb ha hba).symm

theorem nodup_references (h : g.Forest start) {o : ObjectId} (ho : start ≤ o.index) :
    (g.references o).Nodup := by
  rw [List.nodup_iff_count_le_one]
  intro x
  by_cases hx : x ∈ g.references o
  · have hlater := h.later o x ho hx
    exact Nat.le_trans (g.count_references_le o x) (h.single x (by omega))
  · rw [List.count_eq_zero_of_not_mem hx]
    exact Nat.zero_le 1

section Steps

variable {step : ObjectId → List ObjectId}

/-- Steps along references, from an object of the forest on. -/
theorem refers_of_steps (h : g.Forest start) (hstep : ∀ o, (step o).Sublist (g.references o))
    {a b : ObjectId} (ha : start ≤ a.index)
    (hab : Relation.ReflTransGen (fun a b => b ∈ step a) a b) :
    Relation.ReflTransGen (g.Refers start) a b := by
  induction hab with
  | refl => exact .refl
  | tail _ hlast ih => exact ih.tail ⟨Nat.le_trans ha (h.index_le ih), (hstep _).subset hlast⟩

/-- Level by level, a forest is passed through without repetition, from objects none of which stands
above another. -/
theorem nodup_breadthFirst (h : g.Forest start) (hstep : ∀ o, (step o).Sublist (g.references o))
    (bound : Nat) {level : List ObjectId} (hnodup : level.Nodup)
    (hstart : ∀ a ∈ level, start ≤ a.index)
    (hapart : ∀ a ∈ level, ∀ b ∈ level, Relation.ReflTransGen (g.Refers start) a b → a = b) :
    (breadthFirst step bound level).Nodup := by
  induction bound generalizing level with
  | zero => exact List.nodup_nil
  | succ bound ih =>
    have hrefers : ∀ a ∈ level, ∀ x ∈ step a, g.Refers start a x :=
      fun a ha x hx => ⟨hstart a ha, (hstep a).subset hx⟩
    have hnext : ∀ x ∈ level.flatMap step, ∃ a ∈ level, g.Refers start a x := by
      intro x hx
      obtain ⟨a, ha, hx⟩ := List.mem_flatMap.1 hx
      exact ⟨a, ha, hrefers a ha x hx⟩
    have hnextStart : ∀ x ∈ level.flatMap step, start ≤ x.index := by
      intro x hx
      obtain ⟨a, -, ha, hax⟩ := hnext x hx
      exact Nat.le_of_lt (Nat.lt_of_le_of_lt ha (h.later a x ha hax))
    rw [breadthFirst, List.nodup_append]
    refine ⟨hnodup, ih ?_ hnextStart ?_, ?_⟩
    · -- what two objects of the level refer to is different, since parents are unique
      rw [List.nodup_flatMap]
      refine ⟨fun a ha => (h.nodup_references (hstart a ha)).sublist (hstep a), ?_⟩
      refine hnodup.imp_of_mem fun {a b} ha hb hne x hax hbx => ?_
      exact hne (h.leftUnique (hrefers a ha x hax) (hrefers b hb x hbx))
    · intro x hx y hy hxy
      obtain ⟨a, ha, hax⟩ := hnext x hx
      obtain ⟨b, hb, hby⟩ := hnext y hy
      rcases Relation.ReflTransGen.cases_tail hxy with heq | ⟨parent, hparent, hlast⟩
      · exact heq.symm
      · have hparentEq := h.leftUnique hlast hby
        subst hparentEq
        have hab := hapart a ha parent hb (.head hax hparent)
        subst hab
        exact h.eq_of_sibling hax hby hxy
    · rintro x hx y hy rfl
      -- an object of the level does not occur below the level
      obtain ⟨b, hb, hbx⟩ := exists_of_mem_breadthFirst hy
      obtain ⟨a, ha, hab⟩ := hnext b hb
      have hbelow := h.refers_of_steps hstep (hnextStart b hb) hbx
      have hax := hapart a ha x hx (.head hab hbelow)
      subst hax
      have hle := h.index_le hbelow
      have hlt := h.later a b hab.1 hab.2
      omega

theorem nodup_depthFirst (h : g.Forest start) (hstep : ∀ o, (step o).Sublist (g.references o))
    (bound depth : Nat) {x : ObjectId} (hx : start ≤ x.index) :
    ((depthFirst step bound depth x).map Prod.snd).Nodup := by
  induction bound generalizing depth x with
  | zero => exact List.nodup_nil
  | succ bound ih =>
    have hchild : ∀ child ∈ step x, g.Refers start x child :=
      fun child hchild => ⟨hx, (hstep x).subset hchild⟩
    have hlater : ∀ child ∈ step x, x.index < child.index :=
      fun child hmem => h.later x child hx (hchild child hmem).2
    have hbelow : ∀ child ∈ step x, ∀ y ∈ (depthFirst step bound (depth + 1) child).map Prod.snd,
        Relation.ReflTransGen (g.Refers start) child y := by
      intro child hmem y hy
      have hindex := hlater child hmem
      exact h.refers_of_steps hstep (by omega) (reflTransGen_of_mem_depthFirst hy)
    rw [depthFirst, List.map_cons, List.nodup_cons, List.map_flatMap, List.nodup_flatMap]
    refine ⟨fun hmem => ?_, fun child hmem => ih (depth + 1) ?_, ?_⟩
    · obtain ⟨child, hchildMem, hy⟩ := List.mem_flatMap.1 hmem
      have hle := h.index_le (hbelow child hchildMem x hy)
      have hlt := hlater child hchildMem
      omega
    · have hindex := hlater child hmem
      omega
    · have hnodup := (h.nodup_references hx).sublist (hstep x)
      refine hnodup.imp_of_mem fun {a b} ha hb hne y hay hby => ?_
      exact hne (h.eq_of_below (hchild a ha) (hchild b hb) (hbelow a ha y hay) (hbelow b hb y hby))

/-- A bound on the depth does not matter from the number of objects on. -/
theorem depthFirst_eq (h : g.Forest start) (hstep : ∀ o, (step o).Sublist (g.references o))
    {bound other : Nat} (depth : Nat) {x : ObjectId} (hx : start ≤ x.index)
    (hknown : x.index < g.size) (hbound : g.size ≤ x.index + bound)
    (hother : g.size ≤ x.index + other) :
    depthFirst step bound depth x = depthFirst step other depth x := by
  induction bound generalizing other depth x with
  | zero => omega
  | succ bound ih =>
    cases other with
    | zero => omega
    | succ other =>
      rw [depthFirst, depthFirst]
      congr 1
      apply List.flatMap_congr
      intro child hchild
      have hmem := (hstep x).subset hchild
      have hlater := h.later x child hx hmem
      have hknown' := h.closed x child hmem
      exact ih (depth + 1) (by omega) hknown' (by omega) (by omega)

end Steps

/-- A forest mirrors itself. -/
theorem mirrors (h : g.Forest start) :
    g.Mirrors (fun object node => object = node ∧ start ≤ object.index ∧ object.index < g.size)
      g.nested where
  nested := by
    rintro object _ ⟨rfl, hstart, -⟩
    rw [List.forall₂_same]
    intro child hchild
    have hmem := (sublist_nested g object).subset hchild
    have hlater := h.later object child hstart hmem
    exact ⟨rfl, by omega, h.closed object child hmem⟩
  later := by
    rintro object _ ⟨rfl, hstart, -⟩ child hchild
    exact h.later object child hstart ((sublist_nested g object).subset hchild)
  known := by
    rintro object _ ⟨rfl, -, hknown⟩
    exact hknown

end Forest

/-! ## The two traversals -/

/-- The objects below `root`, level by level. -/
def levels (g : Graph) (root : ObjectId) : List ObjectId :=
  breadthFirst g.nested g.size (g.nested root)

/-- The objects of the visual tree at `root`, each before what is below it, with their depths. -/
def preorder (g : Graph) (root : ObjectId) : List (Nat × ObjectId) :=
  depthFirst g.children g.size 0 root

namespace Forest

variable {g : Graph} {start : Nat} {root : ObjectId}

theorem nodup_levels (h : g.Forest start) (hroot : start ≤ root.index) :
    (root :: g.levels root).Nodup := by
  have hnodup : (breadthFirst g.nested (g.size + 1) [root]).Nodup := by
    apply h.nodup_breadthFirst (sublist_nested g) (g.size + 1) (List.nodup_singleton root)
    · intro a ha
      rw [List.mem_singleton.1 ha]
      exact hroot
    · intro a ha b hb _
      rw [List.mem_singleton.1 ha, List.mem_singleton.1 hb]
  rw [breadthFirst, List.flatMap_singleton] at hnodup
  exact hnodup

/-- Below as many levels as there are objects there is nothing. -/
theorem levelBelow_eq_nil (h : g.Forest start) (hroot : start ≤ root.index) {depth : Nat}
    (hdepth : g.size ≤ depth) : levelBelow g.nested (g.nested root) depth = [] := by
  rw [List.eq_nil_iff_forall_not_mem]
  intro x hx
  have hlt : depth < g.size := by
    refine h.mirrors.depth_lt (fun child hchild => ⟨child, rfl, ?_⟩) hx
    have hmem := (sublist_nested g root).subset hchild
    have hlater := h.later root child hroot hmem
    exact ⟨by omega, h.closed root child hmem⟩
  omega

/-- The search looks at the objects below the root, in one order for all ids, until it has found the
id; and it ends by itself. -/
theorem searchLevels_eq (h : g.Forest start) (hroot : start ≤ root.index) (id : String)
    {bound : Nat} (hbound : g.size ≤ bound) :
    g.searchLevels id bound (g.nested root) = (g.levels root).find? (g.hasId id) := by
  rw [searchLevels_eq_find?]
  induction hbound with
  | refl => rfl
  | step hle ih => rw [breadthFirst_succ, h.levelBelow_eq_nil hroot hle, List.append_nil, ih]

theorem nodup_preorder (h : g.Forest start) (hroot : start ≤ root.index) :
    ((g.preorder root).map Prod.snd).Nodup :=
  h.nodup_depthFirst (sublist_children g) g.size 0 hroot

/-- The outline prints one line for each object of the visual tree; and it ends by itself. -/
theorem outlineLevels_eq (h : g.Forest start) (hroot : start ≤ root.index)
    (hknown : root.index < g.size) {bound : Nat} (hbound : g.size ≤ bound) :
    g.outlineLevels bound 0 root =
      String.join ((g.preorder root).map fun line => g.outlineLine line.1 line.2) := by
  rw [outlineLevels_eq_join, preorder]
  rw [h.depthFirst_eq (sublist_children g) 0 hroot hknown (by omega)
    (by omega : g.size ≤ root.index + g.size)]

end Forest

end Graph

end MarkupForms
