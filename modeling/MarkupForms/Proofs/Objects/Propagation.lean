import MarkupForms.Proofs.Objects.Settled

/-!
# Where a change of context goes

Each object of a quiet graph leads to what is nested in it once it has taken its values. The walk
from a root comes to all that the root leads to in this way, settles it, and ends; and what is
nested in the root afterwards is just this. The graph is quiet again.
-/

namespace MarkupForms.Graph

variable {g w : Graph} {context : BindingContext} {D T : Set ObjectId} {id root : ObjectId}
  {c : Component}

/-! ## Where the walk goes -/

/-- Once `a` has taken its values, `b` is nested in it. -/
def Leads (g : Graph) (context : BindingContext) (a b : ObjectId) : Prop :=
  ∃ c, g.component? a = some c ∧ b ∈ (c.given g context).nested

/-- The object and all that a walk from it comes to. -/
def below (g : Graph) (context : BindingContext) (id : ObjectId) : Set ObjectId :=
  fun x => Relation.ReflTransGen (g.Leads context) id x

/-- The object and all that is nested in it, over any number of steps. -/
def reach (g : Graph) (id : ObjectId) : Set ObjectId :=
  fun x => Relation.ReflTransGen g.Nests id x

theorem Leads.nests (hg : g.All Component.ConvertsFree) (hcontext : ContextFree context)
    {a b : ObjectId} (h : g.Leads context a b) : g.Nests a b := by
  obtain ⟨c, hread, hmem⟩ := h
  rw [Nests, Graph.nested, hread]
  exact (Component.prunes_given hg hcontext c).nested.subset hmem

/-- The walk from an object is its turn and the walks from what it leads to. -/
theorem insert_below (hid : g.component? id = some c) (D : Set ObjectId) :
    insert id D ∪ {x | ∃ a ∈ (c.given g context).nested, x ∈ g.below context a} =
      D ∪ g.below context id := by
  ext x
  constructor
  · rintro ((rfl | hx) | ⟨a, ha, hx⟩)
    · exact Or.inr .refl
    · exact Or.inl hx
    · exact Or.inr (.head ⟨c, hid, ha⟩ hx)
  · rintro (hx | hx)
    · exact Or.inl (Set.mem_insert_of_mem id hx)
    · rcases Relation.ReflTransGen.cases_head hx with rfl | ⟨a, ⟨own, hown, ha⟩, hx⟩
      · exact Or.inl (Set.mem_insert id D)
      · rw [hid] at hown
        cases hown
        exact Or.inr ⟨a, ha, hx⟩

/-! ## The walk -/

/-- With this bound the walk ends, from every object of `T` that is low enough, and settles what it
comes to; no list view is stamping rows around it. -/
def Settles (g : Graph) (context : BindingContext) (T : Set ObjectId) (bound : Nat) : Prop :=
  ∀ id D walk, id ∈ T → id.index < g.size → g.height id + 2 ≤ bound →
    g.Settled context T D walk.graph →
      ∃ done, propagate bound [] context id walk = some done ∧
        g.Settled context T (D ∪ g.below context id) done.graph

/-- The walks from several objects, one after the other. -/
theorem Settles.children {bound : Nat} (h : g.Settles context T bound) {children : List ObjectId}
    (hchildren : ∀ a ∈ children, a ∈ T ∧ a.index < g.size ∧ g.height a + 2 ≤ bound) {walk : Walk}
    (hwalk : g.Settled context T D walk.graph) :
    ∃ done, children.foldlM (fun walk child => propagate bound [] context child walk) walk =
      some done ∧
      g.Settled context T (D ∪ {x | ∃ a ∈ children, x ∈ g.below context a}) done.graph := by
  induction children generalizing D walk with
  | nil =>
    refine ⟨walk, rfl, ?_⟩
    have hnone : {x | ∃ a ∈ ([] : List ObjectId), x ∈ g.below context a} = ∅ :=
      Set.eq_empty_of_forall_notMem fun x ⟨a, ha, _⟩ => List.not_mem_nil ha
    rw [hnone, Set.union_empty]
    exact hwalk
  | cons child children ih =>
    obtain ⟨hT, hlt, hheight⟩ := hchildren child List.mem_cons_self
    obtain ⟨next, hnext, hsettled⟩ := h child D walk hT hlt hheight hwalk
    obtain ⟨done, hdone, hlast⟩ := ih (fun a ha => hchildren a (List.mem_cons_of_mem _ ha)) hsettled
    refine ⟨done, ?_, ?_⟩
    · rw [List.foldlM_cons]
      exact Option.bind_eq_some_iff.2 ⟨next, hnext, hdone⟩
    · have hcons : {x | ∃ a ∈ child :: children, x ∈ g.below context a} =
          g.below context child ∪ {x | ∃ a ∈ children, x ∈ g.below context a} := by
        ext x
        exact List.exists_mem_cons_iff (x ∈ g.below context ·) child children
      rw [hcons, ← Set.union_assoc]
      exact hlast

/-- **The walk ends and settles what it comes to**, by induction on its bound: heights decrease, and
each turn needs one level for its rows. -/
theorem settles (hg : g.Quiet) (hcontext : ContextFree context)
    (hT : ∀ a ∈ T, ∀ b, g.Leads context a b → b ∈ T) (bound : Nat) : g.Settles context T bound := by
  induction bound with
  | zero =>
    intro id D walk _ _ hheight _
    omega
  | succ bound ih =>
    intro id D walk hid hlt hheight hwalk
    obtain ⟨c, hread⟩ : ∃ c, g.component? id = some c := ⟨_, Array.getElem?_eq_getElem hlt⟩
    obtain ⟨smaller, rfl⟩ : ∃ smaller, bound = smaller + 1 := ⟨bound - 1, by omega⟩
    obtain ⟨stamped, hstamped, hpropagate⟩ :=
      hwalk.propagate_eq hg hcontext hread hid smaller walk.warnings
    have hchildren : ∀ a ∈ (c.given g context).nested,
        a ∈ T ∧ a.index < g.size ∧ g.height a + 2 ≤ smaller + 1 := by
      intro a ha
      have hleads : g.Leads context id a := ⟨c, hread, ha⟩
      have hnests := hleads.nests hg.converts hcontext
      have hlower := hg.height_lt hnests
      exact ⟨hT id hid a hleads, hg.index_lt hnests, by omega⟩
    obtain ⟨done, hdone, hsettled⟩ := ih.children hchildren hstamped
    rw [insert_below hread] at hsettled
    exact ⟨done, hpropagate.trans hdone, hsettled⟩

/-! ## Where it went -/

/-- Two relations that agree wherever the first leads. -/
theorem reflTransGen_congr {α : Type} {R S : α → α → Prop} {start : α}
    (h : ∀ a b, Relation.ReflTransGen R start a → (R a b ↔ S a b)) (x : α) :
    Relation.ReflTransGen R start x ↔ Relation.ReflTransGen S start x := by
  constructor
  · intro hx
    induction hx with
    | refl => exact .refl
    | @tail a b ha hab ih => exact ih.tail ((h a b ha).1 hab)
  · intro hx
    induction hx with
    | refl => exact .refl
    | @tail a b _ hab ih => exact ih.tail ((h a b ih).2 hab)

namespace Passed

/-- After the walk, the root leads to what the walk came to. -/
theorem reach_eq (h : g.Passed context (g.below context root) w) :
    w.reach root = g.below context root := by
  ext x
  refine (reflTransGen_congr (fun a b ha => ?_) x).symm
  obtain ⟨c, hread⟩ : ∃ c, g.component? a = some c := ⟨_, Array.getElem?_eq_getElem (h.known a ha)⟩
  obtain ⟨rows, hgiven, -⟩ := h.given a c hread ha
  rw [Nests, Graph.nested, hgiven]
  constructor
  · rintro ⟨own, hown, hmem⟩
    rw [hread] at hown
    cases hown
    exact hmem
  · exact fun hmem => ⟨c, hread, hmem⟩

/-- An object that has had a turn has nothing more to take. -/
theorem given_again (h : g.Passed context D w) (hg : g.Quiet) (hcontext : ContextFree context)
    (hid : id ∈ D) {current : Component} (hread : w.component? id = some current) :
    current.given w context = current := by
  obtain ⟨c, hown⟩ : ∃ c, g.component? id = some c :=
    ⟨_, Array.getElem?_eq_getElem (h.known id hid)⟩
  obtain ⟨rows, hgiven, hrows⟩ := h.given id c hown hid
  rw [hread] at hgiven
  cases hgiven
  have hprunes := Component.prunes_given hg.converts hcontext c
  have hconverters : w.ConvertsAs g (c.given g context).converters := by
    apply convertsAs (h.pruned hg.converts hcontext)
    rw [hprunes.converters]
    exact hg.converters id c hown
  rw [Component.given_setRows, Component.given_congr hconverters, Component.given_given]

/-- Where a walk has been, another one with the same context goes again. -/
theorem below_eq_reach (h : g.Passed context (w.reach root) w) (hg : g.Quiet)
    (hcontext : ContextFree context) :
    w.below context root = w.reach root := by
  ext x
  refine (reflTransGen_congr (fun a b ha => ?_) x).symm
  have hknown := (h.known a ha).trans_le h.size
  obtain ⟨current, hread⟩ : ∃ current, w.component? a = some current :=
    ⟨_, Array.getElem?_eq_getElem hknown⟩
  have hagain := h.given_again hg hcontext ha hread
  rw [Nests, Graph.nested, hread]
  constructor
  · exact fun hmem => ⟨current, hread, hagain.symm ▸ hmem⟩
  · rintro ⟨own, hown, hmem⟩
    rw [hread] at hown
    cases hown
    exact hagain ▸ hmem

/-! ## The graph afterwards -/

/-- Every object is one of `g`, which may have lost references, or a row. -/
theorem origin (h : g.Passed context D w) (hg : g.All Component.ConvertsFree)
    (hcontext : ContextFree context) (hread : w.component? id = some c) :
    (∃ own, g.component? id = some own ∧ own.Prunes c) ∨ g.size ≤ id.index ∧ c.Detached g.size := by
  by_cases hid : id.index < g.size
  · obtain ⟨own, hown⟩ : ∃ own, g.component? id = some own := ⟨_, Array.getElem?_eq_getElem hid⟩
    obtain ⟨current, hcurrent, hprunes, -⟩ := h.component hg hcontext hown
    rw [hread] at hcurrent
    cases hcurrent
    exact Or.inl ⟨own, hown, hprunes⟩
  · have hnew := Nat.le_of_not_lt hid
    exact Or.inr ⟨hnew, h.added id c hnew hread⟩

theorem nests (h : g.Passed context D w) (hg : g.All Component.ConvertsFree)
    (hcontext : ContextFree context) {a b : ObjectId} (hab : w.Nests a b) : g.Nests a b := by
  rw [Nests, Graph.nested] at hab ⊢
  cases hread : w.component? a with
  | none => rw [hread] at hab; cases hab
  | some c =>
    rw [hread] at hab
    rcases h.origin hg hcontext hread with ⟨own, hown, hprunes⟩ | ⟨-, halone⟩
    · rw [hown]
      exact hprunes.nested.subset hab
    · have hnone : b ∈ c.nested := hab
      rw [halone.nested] at hnone
      cases hnone

theorem isTemplate (h : g.Passed context D w) (hg : g.Quiet) (hcontext : ContextFree context)
    {template : Component} (htemplate : w.IsTemplate template) :
    ∃ own, g.IsTemplate own ∧ own.Prunes template := by
  obtain ⟨id, c, templateId, hid, hrows, htemplateId, hread⟩ := htemplate
  rcases h.origin hg.converts hcontext hid with ⟨own, hown, hprunes⟩ | ⟨-, halone⟩
  · rw [hprunes.itemTemplate?] at htemplateId
    have hknown := hg.index_lt_itemTemplate hown htemplateId
    rcases h.origin hg.converts hcontext hread with ⟨old, hold, holdPrunes⟩ | ⟨hnew, -⟩
    · exact ⟨old, ⟨id, own, templateId, hown, hprunes.stamps ▸ hrows, htemplateId, hold⟩,
        holdPrunes⟩
    · exact absurd hknown (Nat.not_lt.2 hnew)
  · rw [halone.itemTemplate?] at htemplateId
    cases htemplateId

/-- **The graph stays quiet**, with all its rows. -/
theorem quiet (h : g.Passed context D w) (hg : g.Quiet) (hcontext : ContextFree context) :
    w.Quiet where
  closed o x hx := by
    rw [references] at hx
    cases hread : w.component? o with
    | none => rw [hread] at hx; cases hx
    | some c =>
      rw [hread] at hx
      rcases h.origin hg.converts hcontext hread with ⟨own, hown, hprunes⟩ | ⟨-, halone⟩
      · refine (hg.closed o x ?_).trans_le h.size
        rw [references_eq hown]
        exact hprunes.references_subset hx
      · have hnone : x ∈ c.references := hx
        rw [halone.alone] at hnone
        cases hnone
  converters id c hread x hx := by
    refine Nat.lt_of_lt_of_le ?_ h.size
    rcases h.origin hg.converts hcontext hread with ⟨own, hown, hprunes⟩ | ⟨-, halone⟩
    · exact hg.converters id own hown x (hprunes.converters ▸ hx)
    · exact halone.converters x hx
  acyclic x hx :=
    hg.acyclic x (Relation.TransGen.mono (fun _ _ hab => h.nests hg.converts hcontext hab) _ _ hx)
  converts := (h.pruned hg.converts hcontext).converts
  templates template htemplate := by
    obtain ⟨own, hown, hprunes⟩ := h.isTemplate hg hcontext htemplate
    exact List.sublist_nil.1 (hg.templates own hown ▸ hprunes.values)
  copies template state htemplate hstate := by
    obtain ⟨own, hown, hprunes⟩ := h.isTemplate hg hcontext htemplate
    have hcopies := hg.copies own state hown (hprunes.type ▸ hstate)
    rw [← hprunes.type] at hcopies
    exact hcopies
  convertersApart id c hread hmem := by
    rcases h.origin hg.converts hcontext hread with ⟨own, hown, hprunes⟩ | ⟨hnew, halone⟩
    · exact hg.convertersApart id own hown (hprunes.converters ▸ hmem)
    · exact Nat.not_lt.2 hnew (halone.converters id hmem)
  rowsApart id templateId c template hread hrows htemplate hreadTemplate := by
    rcases h.origin hg.converts hcontext hread with ⟨own, hown, hprunes⟩ | ⟨-, halone⟩
    · rw [hprunes.itemTemplate?] at htemplate
      have hknown := hg.index_lt_itemTemplate hown htemplate
      rcases h.origin hg.converts hcontext hreadTemplate with ⟨old, hold, holdPrunes⟩ | ⟨hnew, -⟩
      · rw [holdPrunes.converters]
        exact hg.rowsApart id templateId own old hown (hprunes.stamps ▸ hrows) htemplate hold
      · exact absurd hknown (Nat.not_lt.2 hnew)
    · rw [halone.itemTemplate?] at htemplate
      cases htemplate
  lists id c hread := by
    rcases h.origin hg.converts hcontext hread with ⟨own, hown, hprunes⟩ | ⟨-, halone⟩
    · exact hprunes.lists (hg.lists id own hown)
    · exact halone.lists

end Passed

/-- **The walk from a root ends**, below its bound, and comes to what the root leads to
afterwards. -/
theorem settled_setContext (hg : g.Quiet) (hroot : root.index < g.size)
    (hcontext : ContextFree context) :
    (propagate (walkBound g) [] context root ⟨g, []⟩).isSome = true ∧
      (g.setContext root context).1.reach root = g.below context root ∧
      g.Settled context ((g.setContext root context).1.reach root)
        ((g.setContext root context).1.reach root) (g.setContext root context).1 := by
  have hbound : g.height root + 2 ≤ walkBound g := by
    have hheight := g.height_le_size root
    have hsquare : g.size + 2 ≤ walkBound g := Nat.le_mul_of_pos_left _ (Nat.succ_pos _)
    omega
  obtain ⟨walk, hwalk, hsettled⟩ := settles (T := g.below context root) hg hcontext
    (fun a ha b hleads => ha.tail hleads) (walkBound g) root ∅ ⟨g, []⟩ .refl hroot hbound
    (.refl g context (g.below context root))
  rw [Set.empty_union] at hsettled
  have hset : (g.setContext root context).1 = walk.graph := by
    rw [setContext, hwalk]
  rw [hwalk, hset, hsettled.reach_eq]
  exact ⟨rfl, rfl, hsettled⟩

end MarkupForms.Graph
