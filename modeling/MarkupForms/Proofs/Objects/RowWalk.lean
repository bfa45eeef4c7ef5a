import MarkupForms.Proofs.Objects.Propagation

/-!
# Walks that stamp no rows

Where no object stamps rows, a walk is nothing but turns: each object that it comes to takes its
values, and everything else stays as it is. This holds under contexts with objects, too; where the
walk goes is then a matter of the context. It also holds of a graph in which some objects have had
their turn with this context before.
-/

namespace MarkupForms

namespace Graph

variable {g w later : Graph} {context : BindingContext} {D R : Set ObjectId} {id : ObjectId}

/-! ## Turns -/

/-- The objects of `D` have had their turn; the others are as they were in `w`. -/
structure TookTurns (g : Graph) (context : BindingContext) (D : Set ObjectId) (w later : Graph) :
    Prop where
  size : later.size = w.size
  taken (x : ObjectId) (own : Component) : x ∈ D → g.component? x = some own →
    later.component? x = some (own.filled g context)
  kept (x : ObjectId) : x ∉ D → later.component? x = w.component? x

/-- The objects of `g` convert as before. -/
def KeepsConverters (g w : Graph) : Prop :=
  ∀ x : ObjectId, x.index < g.size →
    (w.component? x).bind (·.converter) = (g.component? x).bind (·.converter)

/-- Each object of `R` is as in `g`, or has had its turn. -/
structure Ready (g : Graph) (context : BindingContext) (R : Set ObjectId) (w : Graph) : Prop where
  converts : g.KeepsConverters w
  object (x : ObjectId) (own : Component) : x ∈ R → g.component? x = some own →
    w.component? x = some own ∨ w.component? x = some (own.filled g context)

/-- A walk from the objects of `R` stays among them, stamps no rows, and ends. -/
structure Walkable (g : Graph) (context : BindingContext) (R : Set ObjectId) : Prop where
  object (x : ObjectId) : x ∈ R → ∃ own, g.component? x = some own ∧
    (own.given g context).Stampless ∧ ∀ y ∈ own.converters, y.index < g.size
  closed (a b : ObjectId) : a ∈ R → g.Leads context a b → b ∈ R
  acyclic (x : ObjectId) : x ∈ R → ¬ Relation.TransGen (g.Leads context) x x

namespace KeepsConverters

theorem convertsAs (h : g.KeepsConverters w) {converters : List ObjectId}
    (hknown : ∀ x ∈ converters, x.index < g.size) : w.ConvertsAs g converters :=
  fun x hx => h x (hknown x hx)

/-- A write that keeps the conversion. -/
theorem set (h : g.KeepsConverters w) {c next : Component} (hread : w.component? id = some c)
    (hsame : next.converter = c.converter) : g.KeepsConverters (w.set id next) := by
  intro x hx
  by_cases hne : id = x
  · subst hne
    rw [component?_set_self hread, ← h id hx, hread]
    exact hsame
  · rw [component?_set_of_ne w hne]
    exact h x hx

theorem alloc (h : g.KeepsConverters w) (hsize : g.size ≤ w.size) (c : Component) :
    g.KeepsConverters (w.alloc c).2 := by
  intro x hx
  rw [component?_alloc_of_lt w c (hx.trans_le hsize)]
  exact h x hx

end KeepsConverters

namespace TookTurns

variable {D' : Set ObjectId}

theorem refl (g : Graph) (context : BindingContext) (w : Graph) : g.TookTurns context ∅ w w :=
  ⟨rfl, fun _ _ hx => hx.elim, fun _ _ => rfl⟩

theorem trans (h : g.TookTurns context D w later) {last : Graph}
    (h' : g.TookTurns context D' later last) :
    g.TookTurns context (D ∪ D') w last where
  size := h'.size.trans h.size
  taken x own hx hown := by
    by_cases hlast : x ∈ D'
    · exact h'.taken x own hlast hown
    · rw [h'.kept x hlast]
      exact h.taken x own (hx.resolve_right hlast) hown
  kept x hx := by
    rw [Set.mem_union, not_or] at hx
    rw [h'.kept x hx.2, h.kept x hx.1]

theorem single {own current : Component} (hread : w.component? id = some current)
    (hown : g.component? id = some own) :
    g.TookTurns context (insert id ∅) w (w.set id (own.filled g context)) where
  size := size_set _ _ _
  taken x other hx hother := by
    obtain rfl : x = id := (Set.mem_insert_iff.1 hx).resolve_right (Set.notMem_empty x)
    rw [hown] at hother
    cases hother
    exact component?_set_self hread _
  kept x hx := by
    apply component?_set_of_ne
    rintro rfl
    exact hx (Set.mem_insert _ ∅)

end TookTurns

/-- What is ready stays ready while its objects have their turns. -/
theorem Ready.turns (h : g.Ready context R w) (hR : g.Walkable context R) (hD : D ⊆ R)
    (hturns : g.TookTurns context D w later) : g.Ready context R later where
  converts x hx := by
    by_cases hturn : x ∈ D
    · obtain ⟨own, hown, -⟩ := hR.object x (hD hturn)
      rw [hturns.taken x own hturn hown, hown]
      exact own.converter_filled g context
    · rw [hturns.kept x hturn]
      exact h.converts x hx
  object x own hx hown := by
    by_cases hturn : x ∈ D
    · exact Or.inr (hturns.taken x own hturn hown)
    · rw [hturns.kept x hturn]
      exact h.object x own hx hown

/-! ## Heights -/

section Height

open Classical

/-- The number of objects that a walk from an object comes to behind it. -/
noncomputable def leadHeight (g : Graph) (context : BindingContext) (id : ObjectId) : Nat :=
  ((Finset.range g.size).filter fun i => Relation.TransGen (g.Leads context) id ⟨i⟩).card

theorem leadHeight_le_size (g : Graph) (context : BindingContext) (id : ObjectId) :
    g.leadHeight context id ≤ g.size :=
  (Finset.card_filter_le _ _).trans_eq (Finset.card_range g.size)

theorem Walkable.leadHeight_lt (hR : g.Walkable context R) {a b : ObjectId} (ha : a ∈ R)
    (h : g.Leads context a b) : g.leadHeight context b < g.leadHeight context a := by
  have hb := hR.closed a b ha h
  obtain ⟨own, hown, -⟩ := hR.object b hb
  exact card_transGen_lt h (index_lt_size hown) (hR.acyclic b hb)

end Height

/-! ## Walks -/

/-- The busy objects block none of those in `R`. -/
def Unblocked (g : Graph) (R : Set ObjectId) (busy : List ObjectId) : Prop :=
  ∀ x ∈ R, ∀ own, g.component? x = some own → own.Unblocked x busy

namespace Walkable

/-- What a walk comes to from an object of `R` is in `R`. -/
theorem below_subset (hR : g.Walkable context R) (hid : id ∈ R) : g.below context id ⊆ R := by
  intro x hx
  induction hx with
  | refl => exact hid
  | tail _ hab ih => exact hR.closed _ _ ih hab

/-- Whether or not an object had a turn before, it has one now. -/
theorem turn (hR : g.Walkable context R) (walk : Walk) (hwalk : g.Ready context R walk.graph)
    (hid : id ∈ R) {own : Component} (hown : g.component? id = some own) {busy : List ObjectId}
    (hbusy : g.Unblocked R busy) (bound : Nat) :
    ∃ warnings, propagate (bound + 1) busy context id walk = (own.given g context).nested.foldlM
        (fun walk child => propagate bound busy context child walk)
          ⟨walk.graph.set id (own.filled g context), warnings⟩ ∧
      g.TookTurns context (insert id ∅) walk.graph (walk.graph.set id (own.filled g context)) := by
  obtain ⟨same, hsame, hstampless, hknown⟩ := hR.object id hid
  rw [hown] at hsame
  cases hsame
  have hconverts : walk.graph.ConvertsAs g own.converters := hwalk.converts.convertsAs hknown
  have hunblocked := hbusy id hid own hown
  rcases hwalk.object id own hid hown with hread | hread
  · have hgiven : own.given walk.graph context = own.given g context :=
      Component.given_congr hconverts
    have hturn := propagate_of_stampless walk context hread hunblocked (hgiven ▸ hstampless) bound
    rw [hgiven, Component.filled_congr hconverts] at hturn
    obtain ⟨warnings, hturn⟩ := hturn
    exact ⟨warnings, hturn, .single hread hown⟩
  · have hagain : walk.graph.ConvertsAs g (own.filled g context).converters := by
      rw [Component.converters_filled]
      exact hconverts
    have hgiven : (own.filled g context).given walk.graph context = own.filled g context := by
      rw [Component.given_congr hagain, Component.given_filled]
    have hturn := propagate_of_stampless walk context hread hunblocked.filled
      (hgiven.symm ▸ hstampless.filled)
      bound
    rw [hgiven, Component.filled_congr hagain, Component.filled_filled] at hturn
    obtain ⟨warnings, hturn⟩ := hturn
    exact ⟨warnings, hturn, .single hread hown⟩

/-- With this bound walks end, from every object of `R` that is low enough. -/
def Turns (g : Graph) (context : BindingContext) (R : Set ObjectId) (busy : List ObjectId)
    (bound : Nat) : Prop :=
  ∀ id walk, id ∈ R → g.leadHeight context id < bound → g.Ready context R walk.graph →
    ∃ done, propagate bound busy context id walk = some done ∧
      g.TookTurns context (g.below context id) walk.graph done.graph

/-- The walks from several objects, one after the other. -/
theorem Turns.children (hR : g.Walkable context R) {busy : List ObjectId} {bound : Nat}
    (h : Turns g context R busy bound) {children : List ObjectId}
    (hchildren : ∀ a ∈ children, a ∈ R ∧ g.leadHeight context a < bound) (walk : Walk)
    (hwalk : g.Ready context R walk.graph) :
    ∃ done, children.foldlM (fun walk child => propagate bound busy context child walk) walk =
      some done ∧
      g.TookTurns context {x | ∃ a ∈ children, x ∈ g.below context a} walk.graph done.graph := by
  induction children generalizing walk with
  | nil =>
    refine ⟨walk, rfl, ?_⟩
    have hnone : {x | ∃ a ∈ ([] : List ObjectId), x ∈ g.below context a} = ∅ :=
      Set.eq_empty_of_forall_notMem fun x ⟨a, ha, _⟩ => List.not_mem_nil ha
    rw [hnone]
    exact .refl g context walk.graph
  | cons child children ih =>
    obtain ⟨hchild, hheight⟩ := hchildren child List.mem_cons_self
    obtain ⟨next, hnext, hturns⟩ := h child walk hchild hheight hwalk
    obtain ⟨done, hdone, hrest⟩ := ih (fun a ha => hchildren a (List.mem_cons_of_mem _ ha)) next
      (hwalk.turns hR (hR.below_subset hchild) hturns)
    refine ⟨done, ?_, ?_⟩
    · rw [List.foldlM_cons]
      exact Option.bind_eq_some_iff.2 ⟨next, hnext, hdone⟩
    · have hcons : {x | ∃ a ∈ child :: children, x ∈ g.below context a} =
          g.below context child ∪ {x | ∃ a ∈ children, x ∈ g.below context a} := by
        ext x
        exact List.exists_mem_cons_iff (x ∈ g.below context ·) child children
      rw [hcons]
      exact hturns.trans hrest

/-- **The walk ends**, and what it comes to has had its turn, by induction on the bound: heights
decrease. -/
theorem turns (hR : g.Walkable context R) {busy : List ObjectId} (hbusy : g.Unblocked R busy)
    (bound : Nat) :
    Turns g context R busy bound := by
  induction bound with
  | zero =>
    intro id walk _ hheight _
    exact absurd hheight (Nat.not_lt_zero _)
  | succ bound ih =>
    intro id walk hid hheight hwalk
    obtain ⟨own, hown, -⟩ := hR.object id hid
    obtain ⟨warnings, hpropagate, hturn⟩ := hR.turn walk hwalk hid hown hbusy bound
    have hchildren : ∀ a ∈ (own.given g context).nested, a ∈ R ∧
        g.leadHeight context a < bound := by
      intro a ha
      have hleads : g.Leads context id a := ⟨own, hown, ha⟩
      have hlower := hR.leadHeight_lt hid hleads
      exact ⟨hR.closed id a hid hleads, by omega⟩
    have hready := hwalk.turns hR (Set.insert_subset hid (Set.empty_subset R)) hturn
    obtain ⟨done, hdone, hrest⟩ := ih.children hR hchildren
      ⟨walk.graph.set id (own.filled g context), warnings⟩ hready
    have hall := hturn.trans hrest
    rw [insert_below hown, Set.empty_union] at hall
    exact ⟨done, hpropagate.trans hdone, hall⟩

end Walkable

end Graph

end MarkupForms
