import Mathlib.Data.Finset.Card
import MarkupForms.Proofs.Objects.Given
import MarkupForms.Proofs.Objects.WalkOnce

/-!
# Graphs that a change of context cannot tangle

Nothing is nested in itself, nothing converts to an object, and rows refer to nothing: then each
object has a height, which counts the objects below it, and a row is on its own from the moment that
it is made.
-/

namespace MarkupForms

/-! ## Rows on their own -/

/-- The object refers to none, and its bindings convert through the first `n` objects only. Nor does
it bring objects in, as a converter or by lists to stamp rows for. -/
structure Component.Detached (n : Nat) (c : Component) : Prop where
  alone : c.references = []
  converters (x : ObjectId) : x ∈ c.converters → x.index < n
  converts : c.ConvertsFree
  lists : c.ListsFree

namespace Component.Detached

variable {n : Nat} {c pruned : Component}

theorem prunes (h : c.Detached n) (hprunes : c.Prunes pruned) : pruned.Detached n where
  alone := List.subset_nil.1 (h.alone ▸ hprunes.references_subset)
  converters := hprunes.converters ▸ h.converters
  converts convert hconvert := h.converts convert (hprunes.converter ▸ hconvert)
  lists := hprunes.lists h.lists

theorem nested (h : c.Detached n) : c.nested = [] :=
  (List.append_eq_nil_iff.1 h.alone).1

theorem itemTemplate? (h : c.Detached n) : c.itemTemplate? = none :=
  itemTemplate?_blank h.alone

end Component.Detached

/-! ## Calm graphs -/

namespace Graph

/-- One object is nested in another. -/
def Nests (g : Graph) (a b : ObjectId) : Prop :=
  b ∈ g.nested a

/-- Rows are stamped from the object. -/
def IsTemplate (g : Graph) (template : Component) : Prop :=
  ∃ id c templateId, g.component? id = some c ∧ c.rows.isSome = true ∧
    c.itemTemplate? = some templateId ∧ g.component? templateId = some template

/-- All that is referred to is there, nothing is nested in itself, no converter returns an object
unless it is given one, and no template has an object among its managed values; a new object of a
template's type refers to none and converts to none. No converter is an object that is being updated
when it is asked: not the object with the binding and, for the bindings of rows, not the list view;
nor is a list view its own template. -/
structure Calm (g : Graph) : Prop where
  closed : g.Closed
  converters (id : ObjectId) (c : Component) : g.component? id = some c →
    ∀ x ∈ c.converters, x.index < g.size
  acyclic (x : ObjectId) : ¬ Relation.TransGen g.Nests x x
  converts : g.All Component.ConvertsFree
  templates (template : Component) : g.IsTemplate template → template.objectValues = []
  copies (template : Component) (state : ObjectState) : g.IsTemplate template →
    template.type.constructor = some state →
      state.references = [] ∧ Component.ConvertsFree { state with type := template.type }
  convertersApart (id : ObjectId) (c : Component) : g.component? id = some c → id ∉ c.converters
  rowsApart (id templateId : ObjectId) (c template : Component) : g.component? id = some c →
    c.rows.isSome = true →
    c.itemTemplate? = some templateId → g.component? templateId = some template →
      templateId ≠ id ∧ id ∉ template.converters

/-- Nor does any list that is stored to stamp rows for contain an object. -/
structure Quiet (g : Graph) : Prop extends Calm g where
  lists : g.All Component.ListsFree

theorem Calm.index_lt {g : Graph} (hg : g.Calm) {a b : ObjectId} (h : g.Nests a b) :
    b.index < g.size :=
  hg.closed a b ((sublist_nested g a).subset h)

theorem Calm.index_lt_itemTemplate {g : Graph} (hg : g.Calm) {id templateId : ObjectId}
    {c : Component} (hid : g.component? id = some c)
    (htemplate : c.itemTemplate? = some templateId) :
    templateId.index < g.size :=
  hg.closed id templateId (itemTemplate?_mem_references hid htemplate)

/-- Nothing that an object needs for its update is being updated, as nothing else is. -/
theorem Calm.unblocked {g : Graph} (hg : g.Calm) {id : ObjectId} {c : Component}
    (hid : g.component? id = some c) :
    c.Unblocked id [] where
  idle := List.not_mem_nil
  converters x hx hmem := by
    rw [List.mem_singleton.1 hmem] at hx
    exact hg.convertersApart id c hid hx
  template t hrows htemplate hmem := by
    obtain ⟨template, hread⟩ : ∃ template, g.component? t = some template :=
      ⟨_, Array.getElem?_eq_getElem (hg.index_lt_itemTemplate hid htemplate)⟩
    exact (hg.rowsApart id t c template hid hrows htemplate hread).1 (List.mem_singleton.1 hmem)

/-! ## Heights -/

section Height

open Classical

/-- A step leads to an object with fewer objects below it, if that does not lie on a circle. -/
theorem card_transGen_lt {R : ObjectId → ObjectId → Prop} {n : Nat} {a b : ObjectId} (h : R a b)
    (hb : b.index < n) (hacyclic : ¬ Relation.TransGen R b b) :
    ((Finset.range n).filter fun i => Relation.TransGen R b ⟨i⟩).card <
      ((Finset.range n).filter fun i => Relation.TransGen R a ⟨i⟩).card := by
  apply Finset.card_lt_card
  rw [Finset.ssubset_iff_of_subset]
  · refine ⟨b.index, Finset.mem_filter.2 ⟨Finset.mem_range.2 hb, .single h⟩, ?_⟩
    exact fun hmem => hacyclic (Finset.mem_filter.1 hmem).2
  · intro i hmem
    obtain ⟨hlt, hbelow⟩ := Finset.mem_filter.1 hmem
    exact Finset.mem_filter.2 ⟨hlt, .head h hbelow⟩

/-- The number of objects below an object. -/
noncomputable def height (g : Graph) (id : ObjectId) : Nat :=
  ((Finset.range g.size).filter fun i => Relation.TransGen g.Nests id ⟨i⟩).card

theorem height_le_size (g : Graph) (id : ObjectId) : g.height id ≤ g.size :=
  (Finset.card_filter_le _ _).trans_eq (Finset.card_range g.size)

/-- What is nested in an object is lower. -/
theorem Calm.height_lt {g : Graph} (hg : g.Calm) {a b : ObjectId} (h : g.Nests a b) :
    g.height b < g.height a :=
  card_transGen_lt h (hg.index_lt h) (hg.acyclic b)

end Height

/-! ## Blank rows -/

/-- The rows of an object are on their own before they are filled, also if the object and its
template have taken values since. -/
theorem Quiet.detached_blankRow {g w : Graph} (hg : g.Quiet) (hw : g.Pruned w) {id : ObjectId}
    {c current blank : Component} (hid : g.component? id = some c) (hrows : c.rows.isSome = true)
    (hcurrent : c.Prunes current) (hblank : current.blankRow? w = some blank) :
    blank.Detached g.size := by
  obtain ⟨templateId, own, template, store, state, htemplate, -, hown, hprunes, hstore,
      hstate, rfl⟩ :=
    hw.template_of_blankRow? hg.closed hid hcurrent hblank
  have his : g.IsTemplate own := ⟨id, c, templateId, hid, hrows, htemplate, hown⟩
  obtain ⟨halone, hconverts⟩ := hg.copies own state his hstate
  have hvalues : store.values.values.filterMap Value.asObject? = [] := by
    rw [← ObjectState.objectValues_of_store hstore]
    exact List.sublist_nil.1 (hg.templates own his ▸ hprunes.values)
  refine ⟨?_, fun x hx => ?_, hconverts, fun other rows hother hmem => ?_⟩
  · have hnested := sublist_nested_blank halone store own.type
    rw [hvalues] at hnested
    exact List.append_eq_nil_iff.2 ⟨List.sublist_nil.1 hnested, (List.append_eq_nil_iff.1 halone).2⟩
  · apply hg.converters templateId own hown x
    rw [← hprunes.converters]
    rw [← hprunes.type] at hx
    exact Component.converters_blank_subset hstore state hx
  · obtain ⟨_, _, rfl⟩ := Option.map_eq_some_iff.1 hother
    exact hprunes.lists (hg.lists templateId own hown) store rows hstore hmem

/-- Nothing that a row needs is being updated while its list view is. -/
theorem Quiet.unblocked_blankRow {g w : Graph} (hg : g.Quiet) (hw : g.Pruned w) {id row : ObjectId}
    {c current blank : Component} (hid : g.component? id = some c) (hrows : c.rows.isSome = true)
    (hcurrent : c.Prunes current) (hblank : current.blankRow? w = some blank)
    (hrow : g.size ≤ row.index) :
    blank.Unblocked row [id] := by
  have halone := hg.detached_blankRow hw hid hrows hcurrent hblank
  obtain ⟨templateId, own, template, store, state, htemplate, -, hown, hprunes, hstore, -, rfl⟩ :=
    hw.template_of_blankRow? hg.closed hid hcurrent hblank
  refine ⟨fun hmem => ?_, fun x hx hmem => ?_, fun t _ ht => ?_⟩
  · rw [List.mem_singleton.1 hmem] at hrow
    exact Nat.not_lt.2 hrow (index_lt_size hid)
  · rcases List.mem_cons.1 hmem with rfl | hmem
    · exact Nat.not_lt.2 hrow (halone.converters x hx)
    · rw [List.mem_singleton.1 hmem, ← hprunes.type] at hx
      apply (hg.rowsApart id templateId c own hid hrows htemplate hown).2
      rw [← hprunes.converters]
      exact Component.converters_blank_subset hstore state hx
  · rw [halone.itemTemplate?] at ht
    cases ht

end Graph

end MarkupForms
