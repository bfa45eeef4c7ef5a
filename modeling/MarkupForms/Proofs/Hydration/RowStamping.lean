import MarkupForms.Proofs.Hydration.RowIsolation

/-!
# Exact rows

Where a context comes to a list view, the list view takes its own values first and then stamps its
rows anew. If the template stores no objects, what the rows are depends on the template and on the
records alone (`stampedRows`): not on the rows that there were, nor on the context, which no row
ever sees. And stamping changes nothing else.
-/

namespace MarkupForms

theorem ValueKind.eq_object_of_admits {kind : ValueKind} {id : ObjectId}
    (h : kind.admits (.object id) = true) :
    kind = .object := by
  cases kind with
  | object => rfl
  | _ => cases h

namespace Graph

/-- The template of an object, if there is one, is another object. It has no objects among its
managed values, its bindings convert through objects that are there, and a new object of its type
refers to none. -/
structure PlainTemplate (g : Graph) (id : ObjectId) (c : Component) : Prop where
  other : c.itemTemplate? ≠ some id
  values (template : Component) : c.itemTemplate?.bind g.component? = some template →
    template.objectValues = []
  converters (template : Component) : c.itemTemplate?.bind g.component? = some template →
    ∀ x ∈ template.converters, x.index < g.size
  copies (template : Component) (state : ObjectState) :
    c.itemTemplate?.bind g.component? = some template →
    template.type.constructor = some state → state.references = []

/-- No busy object is needed for the update of the list view or for a row from its template: nothing
converts for them that is being updated, the list view itself included. -/
structure ListUnblocked (g : Graph) (id : ObjectId) (c : Component) (busy : List ObjectId) :
    Prop where
  list : c.Unblocked id busy
  known (b : ObjectId) : b ∈ busy → b.index < g.size
  row (template : Component) : c.itemTemplate?.bind g.component? = some template →
    ∀ x ∈ template.converters, x ∉ id :: busy

variable {g u : Graph} {id : ObjectId} {c own : Component}

namespace PlainTemplate

/-- The template is not the object that is updated. -/
theorem bind_component?_set (h : g.PlainTemplate id c) (next : Component) :
    c.itemTemplate?.bind (g.set id next).component? = c.itemTemplate?.bind g.component? := by
  cases htemplate : c.itemTemplate? with
  | none => rfl
  | some t =>
    rw [Option.bind_some, Option.bind_some]
    apply component?_set_of_ne
    rintro rfl
    exact h.other htemplate

theorem set (h : g.PlainTemplate id c) : (g.set id c).PlainTemplate id c := by
  have hsame := h.bind_component?_set c
  refine ⟨h.other, ?_, ?_, ?_⟩ <;> rw [hsame]
  · exact h.values
  · rw [size_set]
    exact h.converters
  · exact h.copies

theorem prunes (h : g.PlainTemplate id c) (hprunes : c.Prunes own) : g.PlainTemplate id own := by
  have htemplate := hprunes.itemTemplate?
  refine ⟨?_, ?_, ?_, ?_⟩ <;> rw [htemplate]
  · exact h.other
  · exact h.values
  · exact h.converters
  · exact h.copies

section Rows

variable (h : u.PlainTemplate id own) (hconverts : u.All Component.ConvertsFree)

include h

theorem blankRow {blank : Component} (hblank : own.blankRow? u = some blank) :
    blank.nested = [] ∧ blank.itemTemplate? = none ∧ ∀ x ∈ blank.converters, x.index < u.size := by
  obtain ⟨t, template, store, state, ht, hread, hstore, hstate, rfl⟩ :=
    Component.blankRow?_eq_some hblank
  have htemplate : own.itemTemplate?.bind u.component? = some template := by
    rw [ht, Option.bind_some, hread]
  have halone := h.copies template state htemplate hstate
  have hnone : state.itemTemplate? = none := itemTemplate?_blank halone
  have hvalues := h.values template htemplate
  rw [ObjectState.objectValues_of_store hstore] at hvalues
  refine ⟨List.sublist_nil.1 (hvalues ▸ sublist_nested_blank halone store template.type), hnone,
    fun x hx => ?_⟩
  exact h.converters template htemplate x (Component.converters_blank_subset hstore state hx)

include hconverts

/-- A row that takes its values from a record without objects leads to no object. -/
theorem nested_blankRow {blank : Component} (hblank : own.blankRow? u = some blank)
    {record : BindingContext} (hrecord : ContextFree record) :
    (blank.given u record).nested = [] := by
  have hnested := (Component.prunes_given hconverts hrecord blank).nested
  rw [(h.blankRow hblank).1] at hnested
  exact List.sublist_nil.1 hnested

variable (hlists : own.ListsFree)

include hlists

theorem notMem_rowBelow {record : BindingContext} (hrecord : record ∈ own.rowRecords u)
    (x : ObjectId) :
    x ∉ u.rowBelow own record := by
  rintro ⟨blank, hblank, a, ha, -⟩
  obtain ⟨records, hrecords, hmem⟩ := Component.mem_rowRecords hrecord
  rw [h.nested_blankRow hconverts hblank (hlists.itemsSource hrecords record hmem)] at ha
  cases ha

theorem rowsApart : u.RowsApart id own where
  list _ hrecord := h.notMem_rowBelow hconverts hlists hrecord id
  rows _ _ x _ hrecord _ hx := absurd hx (h.notMem_rowBelow hconverts hlists hrecord x)
  template _ _ x _ hrecord _ _ hx := absurd hx (h.notMem_rowBelow hconverts hlists hrecord x)

end Rows

end PlainTemplate

/-! ## The turn of a list view -/

/-- What blocks nothing before the list view takes its values blocks nothing afterwards. -/
theorem ListUnblocked.set {busy : List ObjectId} (h : g.ListUnblocked id c busy)
    (htemplate : g.PlainTemplate id c) (hprunes : c.Prunes own) :
    (g.set id own).ListUnblocked id own busy where
  list := h.list.prunes hprunes
  known b hb := (size_set g id own).symm ▸ h.known b hb
  row := by
    rw [(htemplate.prunes hprunes).bind_component?_set own, hprunes.itemTemplate?]
    exact h.row

theorem kind_listView (property : ManagedProperty)
    (h : .managed property ∈ Forms.listView.allProperties) :
    property.kind ≠ .object := by
  have hkinds : ∀ property ∈ Forms.listView.allProperties.filterMap PropertyInfo.managed?,
      property.kind ≠ .object := by decide
  exact hkinds property (List.mem_filterMap.2 ⟨_, h, rfl⟩)

/-- Nothing is nested in a list view whose values have the kinds of its properties. -/
theorem nested_of_fits {c : Component} (hfits : c.Fits) (htype : c.type = Forms.listView)
    (hitems : c.items = none) (hentries : c.entries = none) : c.nested = [] := by
  have hvalues : c.objectValues = [] := by
    rw [List.eq_nil_iff_forall_not_mem]
    intro x hx
    cases hstore : c.store with
    | none => rw [ObjectState.objectValues, hstore] at hx; cases hx
    | some store =>
      rw [ObjectState.objectValues_of_store hstore] at hx
      obtain ⟨value, hvalue, hobject⟩ := List.mem_filterMap.1 hx
      obtain ⟨⟨name, value⟩, hentry, rfl⟩ := List.mem_map.1 hvalue
      obtain ⟨property, hfind, hadmits⟩ := (hfits store hstore).values hentry
      rw [htype] at hfind
      have hkind := kind_listView property (List.mem_of_find?_eq_some hfind)
      cases value with
      | object id => exact absurd (ValueKind.eq_object_of_admits hadmits) hkind
      | _ => cases hobject
  rw [ObjectState.nested, ObjectState.children, hitems, hentries, hvalues]
  rfl

end Graph

end MarkupForms
