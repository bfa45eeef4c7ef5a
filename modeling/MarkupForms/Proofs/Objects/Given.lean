import MarkupForms.Proofs.Objects.ObjectFree

/-!
# The values that a context gives

What an object takes from a context depends on the object, on the context, and on the graph only
through the converters of its bindings. So it does not matter when in a walk its turn comes, and a
second turn changes nothing.
-/

namespace MarkupForms

/-- The objects that the bindings of an object name as converters. -/
def ObjectState.converters (state : ObjectState) : List ObjectId :=
  ((state.store.map (·.bindings)).map fun bindings =>
    bindings.values.filterMap (·.binding.converter)).getD []

/-- The graphs agree on what the named objects convert. -/
def Graph.ConvertsAs (other g : Graph) (converters : List ObjectId) : Prop :=
  ∀ x ∈ converters, (other.component? x).bind (·.converter) = (g.component? x).bind (·.converter)

/-! ## What the values depend on -/

section Congruence

variable {g other : Graph} (context : BindingContext)

theorem Binding.evaluate_congr {binding : Binding}
    (h : other.ConvertsAs g binding.converter.toList) :
    (binding.evaluate other context).1 = (binding.evaluate g context).1 := by
  unfold Binding.evaluate
  cases context.get? binding.path with
  | none => rfl
  | some source =>
    cases hconverter : binding.converter with
    | none => rfl
    | some converter =>
      have hsame := h converter (Option.mem_toList.2 hconverter)
      dsimp only
      rw [hsame]
      cases (g.component? converter).bind (·.converter) <;> rfl

theorem BoundProperty.evaluate_congr {bound : BoundProperty}
    (h : other.ConvertsAs g bound.binding.converter.toList) (busy busy' : List ObjectId) :
    (bound.evaluate other busy context).1 = (bound.evaluate g busy' context).1 := by
  have hvalue := Binding.evaluate_congr context h
  unfold BoundProperty.evaluate
  split
  · generalize bound.binding.evaluate other context = drawn at hvalue ⊢
    generalize bound.binding.evaluate g context = drawn' at hvalue ⊢
    obtain ⟨value, warnings⟩ := drawn
    obtain ⟨value', warnings'⟩ := drawn'
    have heq : value = value' := hvalue
    subst heq
    cases value with
    | none => rfl
    | some value => dsimp only; cases bound.property.kind.adapt value <;> rfl
  · rfl

theorem drawValues_congr {bindings : List (String × BoundProperty)}
    (h : other.ConvertsAs g ((bindings.map Prod.snd).filterMap (·.binding.converter)))
    (busy busy' : List ObjectId) :
    (drawValues other busy context bindings).1 = (drawValues g busy' context bindings).1 := by
  induction bindings with
  | nil => rfl
  | cons first rest ih =>
    obtain ⟨name, bound⟩ := first
    have hfirst : (bound.evaluate other busy context).1 = (bound.evaluate g busy' context).1 := by
      apply BoundProperty.evaluate_congr
      intro x hx
      exact h x (List.mem_filterMap.2 ⟨bound, List.mem_cons_self, Option.mem_toList.1 hx⟩)
    have hrest := ih fun x hx => by
      obtain ⟨later, hmem, hconverter⟩ := List.mem_filterMap.1 hx
      exact h x (List.mem_filterMap.2 ⟨later, List.mem_cons_of_mem _ hmem, hconverter⟩)
    rw [drawValues_cons, drawValues_cons, hfirst, hrest]

/-- Which objects are being updated shows in the warnings only. -/
theorem PropertyStore.applyContext_congr {store : PropertyStore}
    (h : other.ConvertsAs g (store.bindings.values.filterMap (·.binding.converter)))
    (busy busy' : List ObjectId) :
    (store.applyContext other busy context).1 = (store.applyContext g busy' context).1 :=
  congrArg (fun values => { store with values := store.values.insertAll values })
    (drawValues_congr context h busy busy')

end Congruence

/-- The bindings stay, so the same values are drawn and inserted once more. -/
theorem PropertyStore.applyContext_applyContext (store : PropertyStore) (g : Graph)
    (busy busy' : List ObjectId) (context : BindingContext) :
    ((store.applyContext g busy context).1.applyContext g busy' context).1 =
      (store.applyContext g busy context).1 := by
  have hinserted := OrderedMap.insertAll_insertAll_self store.values
    (drawValues g busy context store.bindings.toList).1
  rw [applyContext_congr context (fun _ _ => rfl) busy' busy]
  exact congrArg (fun values => { store with values := values }) hinserted

/-! ## Objects -/

/-- The object after its bindings were evaluated, whatever else is going on. -/
def Component.given (c : Component) (g : Graph) (context : BindingContext) : Component :=
  (c.applyContext g [] context).1

namespace Component

variable {g other : Graph} {context : BindingContext}

/-- Only the store changes. -/
theorem given_eq (c : Component) (g : Graph) (context : BindingContext) :
    c.given g context =
      { c with store := c.store.map fun store => (store.applyContext g [] context).1 } := by
  unfold given applyContext
  split
  · next hstore =>
    rw [hstore, Option.map_none, ← hstore]
  · next store hstore =>
    rw [hstore]
    rfl

theorem applyContext_eq_given {c : Component} (h : other.ConvertsAs g c.converters)
    (busy : List ObjectId) :
    (c.applyContext other busy context).1 = c.given g context := by
  unfold given applyContext
  cases hstore : c.store with
  | none => rfl
  | some store =>
    rw [ObjectState.converters, hstore] at h
    have happlied := store.applyContext_congr context h busy []
    exact congrArg (fun applied => ({ c with store := some applied } : Component)) happlied

theorem given_congr {c : Component} (h : other.ConvertsAs g c.converters) :
    c.given other context = c.given g context :=
  applyContext_eq_given h []

/-- Rows play no part. -/
theorem given_setRows (c : Component) (rows : Option (List ObjectId)) :
    ({ c with rows := rows } : Component).given g context =
      { c.given g context with rows := rows } := by
  rw [given_eq, given_eq]

theorem itemTemplate?_given (c : Component) (g : Graph) (context : BindingContext) :
    (c.given g context).itemTemplate? = c.itemTemplate? := by
  rw [given_eq]
  rfl

theorem prunes_given (hg : g.All ConvertsFree) (hcontext : ContextFree context) (c : Component) :
    c.Prunes (c.given g context) :=
  c.prunes_applyContext hg hcontext []

/-- **A second turn changes nothing.** -/
theorem given_given (c : Component) (g : Graph) (context : BindingContext) :
    (c.given g context).given g context = c.given g context := by
  rw [given_eq (c.given g context), given_eq c]
  cases c.store with
  | none => rfl
  | some store =>
    exact congrArg (fun applied => ({ c with store := some applied } : Component))
      (store.applyContext_applyContext g [] [] context)

/-- A blank row converts like its template. -/
theorem converters_blank_subset {template : Component} {store : PropertyStore}
    (hstore : template.store = some store) (state : ObjectState) :
    ({ state with store := state.store.map fun _ => store, type := template.type } :
      Component).converters ⊆ template.converters := by
  rw [ObjectState.converters, ObjectState.converters, hstore]
  cases state.store with
  | none => exact List.nil_subset _
  | some held => exact List.Subset.refl _

theorem Prunes.converters {c pruned : Component} (h : c.Prunes pruned) :
    pruned.converters = c.converters := by
  rw [ObjectState.converters, ObjectState.converters, h.bindings]

theorem Prunes.plainObjects {c pruned : Component} (h : c.Prunes pruned) :
    pruned.plainObjects = c.plainObjects := by
  rw [ObjectState.plainObjects, ObjectState.plainObjects, h.plainValues]

/-- Nothing is referred to that was not before. -/
theorem Prunes.references_subset {c pruned : Component} (h : c.Prunes pruned) :
    pruned.references ⊆ c.references := by
  rw [ObjectState.references, ObjectState.references, h.plainObjects]
  exact List.append_subset.2 ⟨fun x hx => List.mem_append_left _ (h.nested.subset hx),
    fun x hx => List.mem_append_right _ hx⟩

end Component

end MarkupForms
