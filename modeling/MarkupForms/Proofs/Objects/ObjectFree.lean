import MarkupForms.Objects.Context
import MarkupForms.Proofs.Objects.Forest

/-!
# Contexts without objects

A context may hand objects to bound properties, and so tie new knots into a graph. One that contains
no object, behind converters that return none, can only untie: after it an object refers to nothing
that it did not refer to before.
-/

namespace MarkupForms

/-! ## Values -/

/-- The value is no object and contains none: neither does any record of a list. -/
inductive Value.ObjectFree : Value → Prop where
  | text (s : String) : ObjectFree (.text s)
  | int (n : Int64) : ObjectFree (.int n)
  | float (x : Float) : ObjectFree (.float x)
  | bool (b : Bool) : ObjectFree (.bool b)
  | enum (member : String) : ObjectFree (.enum member)
  | list {rows : List BindingContext} :
      (∀ row ∈ rows, ∀ entry ∈ row.toList, ObjectFree entry.2) → ObjectFree (.list rows)

/-- No value of the context contains an object. -/
def ContextFree (context : BindingContext) : Prop :=
  ∀ entry ∈ context.toList, entry.2.ObjectFree

namespace Value.ObjectFree

variable {value adapted : Value}

theorem asObject? (h : value.ObjectFree) : value.asObject? = none := by
  cases h <;> rfl

theorem records (h : value.ObjectFree) {rows : List BindingContext}
    (hrows : value.asList? = some rows) :
    ∀ row ∈ rows, ContextFree row := by
  cases h with
  | list hfree => cases hrows; exact hfree
  | _ => cases hrows

theorem adapt (h : value.ObjectFree) {kind : ValueKind} (hadapt : kind.adapt value = some adapted) :
    adapted.ObjectFree := by
  unfold ValueKind.adapt at hadapt
  split at hadapt
  · cases hadapt; exact .float _
  · obtain ⟨member, -, rfl⟩ := Option.map_eq_some_iff.1 hadapt
    exact .enum member
  · split at hadapt
    · cases hadapt; exact h
    · cases hadapt

end Value.ObjectFree

theorem ContextFree.get? {context : BindingContext} (h : ContextFree context) {path : String}
    {value : Value} (hget : context.get? path = some value) : value.ObjectFree :=
  h (path, value) (OrderedMap.mem_of_get? hget)

/-! ## Bindings -/

/-- A converter returns no object unless it is given one. -/
def Component.ConvertsFree (c : Component) : Prop :=
  ∀ convert, c.converter = some convert → ∀ value : Value, value.ObjectFree →
    (convert value).ObjectFree

section Evaluation

variable {g : Graph} {context : BindingContext}

theorem Binding.objectFree_of_evaluate (hg : g.All Component.ConvertsFree)
    (hcontext : ContextFree context) {binding : Binding} {value : Value}
    (h : (binding.evaluate g context).1 = some value) :
    value.ObjectFree := by
  unfold Binding.evaluate at h
  split at h
  · cases h
  · next source hsource =>
    have hfree := hcontext.get? hsource
    split at h
    · cases h; exact hfree
    · next converter hconverter =>
      split at h
      · next convert hconvert =>
        cases h
        obtain ⟨c, hread, hown⟩ := Option.bind_eq_some_iff.1 hconvert
        exact hg converter c hread convert hown source hfree
      · cases h; exact hfree

theorem BoundProperty.objectFree_of_evaluate (hg : g.All Component.ConvertsFree)
    (hcontext : ContextFree context) {bound : BoundProperty} {busy : List ObjectId} {value : Value}
    (h : (bound.evaluate g busy context).1 = some value) : value.ObjectFree := by
  unfold BoundProperty.evaluate at h
  split at h
  · split at h
    · cases h
    · next drawn warnings hdrawn =>
      have hfree : drawn.ObjectFree :=
        Binding.objectFree_of_evaluate hg hcontext (congrArg Prod.fst hdrawn)
      split at h
      · next adapted hadapt => cases h; exact hfree.adapt hadapt
      · cases h
  · cases h

theorem objectFree_of_mem_drawValues (hg : g.All Component.ConvertsFree)
    (hcontext : ContextFree context) {busy : List ObjectId}
    {bindings : List (String × BoundProperty)} {entry : String × Value}
    (h : entry ∈ (drawValues g busy context bindings).1) : entry.2.ObjectFree := by
  obtain ⟨bound, -, hdrawn⟩ := mem_drawValues.1 h
  exact BoundProperty.objectFree_of_evaluate hg hcontext hdrawn

end Evaluation

/-! ## Objects -/

/-- No record of a list under `ItemsSource` contains an object. -/
def Component.ListsFree (c : Component) : Prop :=
  ∀ store rows, c.store = some store → ("ItemsSource", Value.list rows) ∈ store.values.toList →
    ∀ row ∈ rows, ContextFree row

theorem Component.ListsFree.itemsSource {c : Component} (h : c.ListsFree)
    {records : List BindingContext} (hrecords : c.itemsSource? = some records) :
    ∀ record ∈ records, ContextFree record := by
  obtain ⟨value, hvalue, hlist⟩ := Option.bind_eq_some_iff.1 hrecords
  obtain ⟨store, hstore, hget⟩ := Option.bind_eq_some_iff.1 hvalue
  cases value with
  | list rows => cases hlist; exact h store _ hstore (OrderedMap.mem_of_get? hget)
  | _ => cases hlist

/-- Everything of an object but its rows and its managed values; these may have lost references, not
won any. -/
structure Component.Prunes (c pruned : Component) : Prop where
  type : pruned.type = c.type
  converter : pruned.converter = c.converter
  bindings : pruned.store.map (·.bindings) = c.store.map (·.bindings)
  plainValues : pruned.plainValues = c.plainValues
  items : pruned.items = c.items
  entries : pruned.entries = c.entries
  stamps : pruned.rows.isSome = c.rows.isSome
  values : pruned.objectValues.Sublist c.objectValues
  lists : c.ListsFree → pruned.ListsFree

namespace Component.Prunes

variable {c pruned next : Component}

theorem refl (c : Component) : c.Prunes c :=
  ⟨rfl, rfl, rfl, rfl, rfl, rfl, rfl, .refl _, id⟩

theorem trans (h : c.Prunes pruned) (h' : pruned.Prunes next) : c.Prunes next where
  type := h'.type.trans h.type
  converter := h'.converter.trans h.converter
  bindings := h'.bindings.trans h.bindings
  plainValues := h'.plainValues.trans h.plainValues
  items := h'.items.trans h.items
  entries := h'.entries.trans h.entries
  stamps := h'.stamps.trans h.stamps
  values := h'.values.trans h.values
  lists hlists := h'.lists (h.lists hlists)

/-- Rows are replaced by rows. -/
theorem setRows (h : c.Prunes pruned) (rows : Option (List ObjectId))
    (hrows : rows.isSome = pruned.rows.isSome) : c.Prunes { pruned with rows := rows } where
  type := h.type
  converter := h.converter
  bindings := h.bindings
  plainValues := h.plainValues
  items := h.items
  entries := h.entries
  stamps := hrows.trans h.stamps
  values := h.values
  lists := h.lists

theorem nested (h : c.Prunes pruned) : pruned.nested.Sublist c.nested := by
  rw [ObjectState.nested, ObjectState.nested, ObjectState.children, ObjectState.children, h.items,
    h.entries]
  exact ((List.Sublist.refl _).append h.values).append (.refl _)

theorem itemTemplate? (h : c.Prunes pruned) : pruned.itemTemplate? = c.itemTemplate? := by
  rw [ObjectState.itemTemplate?, ObjectState.itemTemplate?, ObjectState.plain?, ObjectState.plain?,
    h.plainValues]

end Component.Prunes

/-- **A context without objects unties**: it takes references away and puts none in. -/
theorem Component.prunes_applyContext {g : Graph} (hg : g.All Component.ConvertsFree)
    {context : BindingContext} (hcontext : ContextFree context) (c : Component)
    (busy : List ObjectId) :
    c.Prunes (c.applyContext g busy context).1 := by
  unfold Component.applyContext
  cases hstore : c.store with
  | none => exact .refl c
  | some store =>
    have hdrawn : ∀ entry ∈ (drawValues g busy context store.bindings.toList).1,
        entry.2.ObjectFree :=
      fun entry hmem => objectFree_of_mem_drawValues hg hcontext hmem
    refine ⟨rfl, rfl, ?_, rfl, rfl, rfl, rfl, ?_, ?_⟩
    · rw [hstore]
      rfl
    · rw [ObjectState.objectValues_of_store hstore]
      exact OrderedMap.filterMap_insertAll_sublist Value.asObject? store.values
        fun entry hmem => (hdrawn entry hmem).asObject?
    · intro hlists applied rows happlied hmem
      cases happlied
      rcases OrderedMap.mem_insertAll hmem with hnew | hold
      · exact (hdrawn _ hnew).records rfl
      · exact hlists store rows hstore hold

end MarkupForms
