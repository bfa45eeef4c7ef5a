import MarkupForms.Proofs.Objects.Context
import MarkupForms.Proofs.OrderedMap
import MarkupForms.Proofs.Types.Registration

/-!
# Stored values fit their properties

A property store does not check what is written to it: that the values in it have the kinds of their
properties, and that its bindings sit where lookups find them, is a property of the programs that
write. `StoreFits` states it, and one lemma for each write says when the write keeps it.
-/

namespace MarkupForms

/-- What the store of an object of type `type` promises. A value is stored under the name of a
managed property and has a kind that the property admits. A binding is stored under the name of its
own descriptor, and that descriptor is the one that a lookup finds. -/
structure StoreFits (type : TypeInfo) (store : PropertyStore) : Prop where
  values {name : String} {value : Value} : (name, value) ∈ store.values.toList →
    ∃ property, type.findProperty name = some (.managed property) ∧
    property.kind.admits value = true
  bindings {name : String} {bound : BoundProperty} : (name, bound) ∈ store.bindings.toList →
    bound.property.name = name ∧ type.findProperty name = some (.managed bound.property)

/-- The object has no store, or one that fits its type. -/
def Component.Fits (c : Component) : Prop :=
  ∀ store, c.store = some store → StoreFits c.type store

/-- **Kind safety**: the store of every object fits the object's type. -/
def Graph.KindSafe (g : Graph) : Prop :=
  g.All Component.Fits

/-- A bound property takes only what its kind admits, whatever the binding's converter yields. -/
theorem BoundProperty.admits_of_evaluate {bound : BoundProperty} {g : Graph} {busy : List ObjectId}
    {context : BindingContext} {value : Value}
    (h : (bound.evaluate g busy context).1 = some value) :
    bound.property.kind.admits value = true := by
  unfold BoundProperty.evaluate at h
  split at h
  · split at h
    · cases h
    · split at h
      · next hadapt => cases h; exact ValueKind.admits_of_adapt hadapt
      · cases h
  · cases h

namespace StoreFits

variable {type : TypeInfo} {store : PropertyStore}

theorem empty (type : TypeInfo) : StoreFits type .empty where
  values h := by cases h
  bindings h := by cases h

theorem setValue (h : StoreFits type store) {property : ManagedProperty} {value : Value}
    (hfind : type.findProperty property.name = some (.managed property))
    (hadmits : property.kind.admits value = true) :
    StoreFits type (store.setValue property value) where
  values hmem := by
    rcases OrderedMap.mem_insert hmem with hnew | hold
    · cases hnew; exact ⟨property, hfind, hadmits⟩
    · exact h.values hold
  bindings := h.bindings

theorem setBinding (h : StoreFits type store) {property : ManagedProperty} (binding : Binding)
    (hfind : type.findProperty property.name = some (.managed property)) :
    StoreFits type (store.setBinding property binding) where
  values := h.values
  bindings hmem := by
    rcases OrderedMap.mem_insert hmem with hnew | hold
    · cases hnew; exact ⟨rfl, hfind⟩
    · exact h.bindings hold

theorem admits_of_mem_drawValues {g : Graph} {busy : List ObjectId} {context : BindingContext}
    {bindings : List (String × BoundProperty)} {name : String} {value : Value}
    (h : (name, value) ∈ (drawValues g busy context bindings).1) :
    ∃ bound, (name, bound) ∈ bindings ∧ bound.property.kind.admits value = true := by
  obtain ⟨bound, hmem, hdrawn⟩ := mem_drawValues.1 h
  exact ⟨bound, hmem, BoundProperty.admits_of_evaluate hdrawn⟩

theorem applyContext (h : StoreFits type store) (g : Graph) (busy : List ObjectId)
    (context : BindingContext) : StoreFits type (store.applyContext g busy context).1 where
  values hmem := by
    rcases OrderedMap.mem_insertAll hmem with hdrawn | hold
    -- a drawn value is stored under the name that its binding is stored under
    · obtain ⟨bound, hbound, hadmits⟩ := admits_of_mem_drawValues hdrawn
      exact ⟨bound.property, (h.bindings hbound).2, hadmits⟩
    · exact h.values hold
  bindings := h.bindings

end StoreFits

/-! ## Changes of context -/

theorem Component.fits_applyContext {c : Component} (h : c.Fits) (g : Graph) (busy : List ObjectId)
    (context : BindingContext) : (c.applyContext g busy context).1.Fits := by
  unfold Component.applyContext
  cases hstore : c.store with
  | none =>
    intro store hsome
    rw [hstore] at hsome
    cases hsome
  | some store =>
    intro applied happlied
    cases happlied
    exact (h store hstore).applyContext g busy context

/-! ## Sound objects -/

/-- What the constructors of registered types leave in the stores of new objects fits. -/
def Catalog.NewObjectsFit (catalog : Catalog) : Prop :=
  ∀ type state, catalog.Contains type → type.constructor = some state →
    Component.Fits { state with type := type }

/-- The object is of a registered type and its store fits. -/
def Component.Sound (catalog : Catalog) (c : Component) : Prop :=
  catalog.Contains c.type ∧ c.Fits

theorem Component.Sound.withStore {catalog : Catalog} {c : Component} (h : c.Sound catalog)
    {store : PropertyStore} (hstore : StoreFits c.type store) :
    Component.Sound catalog { c with store := some store } :=
  ⟨h.1, fun _ hwritten => by cases hwritten; exact hstore⟩

theorem keptByContext_sound (catalog : Catalog) : KeptByContext (Component.Sound catalog) where
  applyContext c g busy context h := by
    refine ⟨?_, Component.fits_applyContext h.2 g busy context⟩
    unfold Component.applyContext
    split <;> exact h.1
  rows c rows h := h
  stamped template store state h hstore hconstructor := by
    refine ⟨h.1, fun held hheld => ?_⟩
    obtain ⟨_, _, rfl⟩ := Option.map_eq_some_iff.1 hheld
    exact h.2 store hstore

end MarkupForms
