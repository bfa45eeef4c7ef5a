import MarkupForms.Proofs.Objects.Given

/-!
# Contexts one after the other

A store takes one context after another, and each brings values for some of its bindings: others
have no value under the path, or one that does not fit the property, or do not read from the source
at all. What a property has in the end is what the last context that had something for it gave
(`applyContexts_exact`), whatever other properties took in the meantime and wherever they stand.
-/

namespace MarkupForms

/-! ## What a binding draws -/

/-- What the binding makes of a source value: what its converter returns, or the value itself if
there is no converter or the resource converts nothing. -/
def Binding.converted (binding : Binding) (g : Graph) (source : Value) : Value :=
  match (binding.converter.bind g.component?).bind (·.converter) with
  | some convert => convert source
  | none => source

/-- The value that a context holds for a bound property: the converted one in the shape of the
property's kind, if the context has a value under the path and the converted one fits. -/
def BoundProperty.drawn? (bound : BoundProperty) (g : Graph) (context : BindingContext) :
    Option Value :=
  ((context.get? bound.binding.path).map (bound.binding.converted g)).bind bound.property.kind.adapt

section Drawing

variable {g : Graph} {context : BindingContext}

theorem Binding.evaluate_eq_converted (binding : Binding) (g : Graph) (context : BindingContext) :
    (binding.evaluate g context).1 = (context.get? binding.path).map (binding.converted g) := by
  unfold Binding.evaluate Binding.converted
  cases context.get? binding.path with
  | none => rfl
  | some source =>
    cases binding.converter with
    | none => rfl
    | some converter =>
      dsimp only [Option.bind_some, Option.map_some]
      cases (g.component? converter).bind (·.converter) <;> rfl

/-- A binding that does not read its source draws nothing. -/
theorem BoundProperty.evaluate_eq_drawn? (bound : BoundProperty) (g : Graph) (busy : List ObjectId)
    (context : BindingContext) :
    (bound.evaluate g busy context).1 = if bound.binding.mode.readsSource
      then bound.drawn? g context else none := by
  have hconverted := bound.binding.evaluate_eq_converted g context
  unfold evaluate drawn?
  split
  · generalize bound.binding.evaluate g context = evaluated at hconverted ⊢
    obtain ⟨value, warnings⟩ := evaluated
    rw [← hconverted]
    cases value with
    | none => rfl
    | some value =>
      dsimp only [Option.bind_some]
      cases bound.property.kind.adapt value <;> rfl
  · rfl

theorem BoundProperty.evaluate_eq_some_iff {bound : BoundProperty} {busy : List ObjectId}
    {value : Value} :
    (bound.evaluate g busy context).1 = some value ↔
      bound.binding.mode.readsSource = true ∧ bound.drawn? g context = some value := by
  rw [evaluate_eq_drawn?]
  cases bound.binding.mode.readsSource <;> simp

end Drawing

namespace PropertyStore

/-! ## One context -/

/-- A property has one binding at most. -/
def BoundOnce (store : PropertyStore) : Prop :=
  store.bindings.keys.Nodup

theorem boundOnce_empty : empty.BoundOnce :=
  List.nodup_nil

theorem BoundOnce.setBinding {store : PropertyStore} (h : store.BoundOnce)
    (property : ManagedProperty) (binding : Binding) :
    (store.setBinding property binding).BoundOnce :=
  OrderedMap.nodup_keys_insertAll h [(property.name, ⟨property, binding⟩)]

/-- The properties that take a value from the context, in binding order. -/
def drawnNames (store : PropertyStore) (g : Graph) (context : BindingContext) : List String :=
  (store.bindings.toList.filter fun entry =>
    entry.2.binding.mode.readsSource && (entry.2.drawn? g context).isSome).map Prod.fst

/-- No binding on the property draws a value from the context: there is none, or it does not read
the source, or the value is missing or does not fit. -/
def DrawsNothing (store : PropertyStore) (g : Graph) (name : String)
    (context : BindingContext) : Prop :=
  ∀ bound, store.bindings.get? name = some bound → bound.binding.mode.readsSource = true →
    bound.drawn? g context = none

/-- What one application of a context does to a store. -/
structure TakesContext (g : Graph) (context : BindingContext) (before after : PropertyStore) :
    Prop where
  bindings : after.bindings = before.bindings
  drawn (name : String) (bound : BoundProperty) (value : Value) :
    before.bindings.get? name = some bound →
    bound.binding.mode.readsSource = true → bound.drawn? g context = some value →
    after.value? name = some value
  kept (name : String) : before.DrawsNothing g name context → after.value? name = before.value? name
  /-- Values that were there keep their places, and new ones follow in binding order. -/
  order : after.values.keys =
    before.values.keys ++ (before.drawnNames g context).filter (· ∉ before.values.keys)
  /-- If nothing is drawn, then nothing changes; -/
  nothing : (∀ name, before.DrawsNothing g name context) → after = before
  /-- and the same context once more changes nothing either. -/
  again (busy : List ObjectId) : (after.applyContext g busy context).1 = after

variable {store : PropertyStore} {g : Graph} {context : BindingContext}

theorem keys_drawValues_bindings (store : PropertyStore) (g : Graph) (busy : List ObjectId)
    (context : BindingContext) :
    (drawValues g busy context store.bindings.toList).1.map Prod.fst =
      store.drawnNames g context := by
  rw [keys_drawValues, drawnNames]
  congr 2
  funext entry
  rw [BoundProperty.evaluate_eq_drawn?]
  cases entry.2.binding.mode.readsSource <;> rfl

theorem BoundOnce.nodup_drawnNames (h : store.BoundOnce) (g : Graph) (context : BindingContext) :
    (store.drawnNames g context).Nodup :=
  h.sublist (List.filter_sublist.map _)

theorem BoundOnce.notMem_drawnNames (h : store.BoundOnce) {name : String}
    (hnothing : store.DrawsNothing g name context) : name ∉ store.drawnNames g context := by
  intro hmem
  obtain ⟨⟨_, bound⟩, hbound, rfl⟩ := List.mem_map.1 hmem
  obtain ⟨hentry, hdraws⟩ := List.mem_filter.1 hbound
  rw [Bool.and_eq_true] at hdraws
  have hnone := hnothing bound (OrderedMap.get?_of_mem h hentry) hdraws.1
  rw [hnone] at hdraws
  cases hdraws.2

/-- **One context.** A property takes what its own binding draws, and nothing else changes. -/
theorem BoundOnce.takesContext (h : store.BoundOnce) (g : Graph) (busy : List ObjectId)
    (context : BindingContext) :
    TakesContext g context store (store.applyContext g busy context).1 where
  bindings := rfl
  drawn name bound value hbound hreads hdrawn := by
    have hkeys : ((drawValues g busy context store.bindings.toList).1.map Prod.fst).Nodup := by
      rw [keys_drawValues_bindings]
      exact h.nodup_drawnNames g context
    refine OrderedMap.get?_insertAll_of_mem hkeys
      (mem_drawValues.2 ⟨bound, OrderedMap.mem_of_get? hbound, ?_⟩)
    exact BoundProperty.evaluate_eq_some_iff.2 ⟨hreads, hdrawn⟩
  kept name hnothing := by
    refine OrderedMap.get?_insertAll_of_notMem ?_
    rw [keys_drawValues_bindings]
    exact h.notMem_drawnNames hnothing
  order := by
    have hnodup := h.nodup_drawnNames g context
    rw [← keys_drawValues_bindings store g busy] at hnodup ⊢
    exact OrderedMap.keys_insertAll hnodup
  nothing hnothing := by
    have hnames : store.drawnNames g context = [] :=
      List.eq_nil_iff_forall_not_mem.2 fun name => h.notMem_drawnNames (hnothing name)
    rw [← keys_drawValues_bindings store g busy, List.map_eq_nil_iff] at hnames
    show ({ store with values :=
      store.values.insertAll (drawValues g busy context store.bindings.toList).1 } :
      PropertyStore) = store
    rw [hnames, OrderedMap.insertAll_nil]
  again other := store.applyContext_applyContext g busy other context

/-! ## One context after the other -/

/-- The store after the contexts were applied in turn. -/
def applyContexts (store : PropertyStore) (g : Graph) (busy : List ObjectId)
    (contexts : List BindingContext) :
    PropertyStore :=
  contexts.foldl (fun store context => (store.applyContext g busy context).1) store

section Sequences

variable {busy : List ObjectId} {contexts : List BindingContext}

theorem applyContexts_append (store : PropertyStore) (first second : List BindingContext) :
    store.applyContexts g busy (first ++ second) =
      (store.applyContexts g busy first).applyContexts g busy second :=
  List.foldl_append

theorem bindings_applyContexts (store : PropertyStore) (g : Graph) (busy : List ObjectId)
    (contexts : List BindingContext) : (store.applyContexts g busy contexts).bindings =
      store.bindings := by
  induction contexts generalizing store with
  | nil => rfl
  | cons context contexts ih => exact ih (store.applyContext g busy context).1

theorem BoundOnce.applyContexts (h : store.BoundOnce) (g : Graph) (busy : List ObjectId)
    (contexts : List BindingContext) : (store.applyContexts g busy contexts).BoundOnce := by
  rw [BoundOnce, bindings_applyContexts]
  exact h

/-- Contexts that have nothing for a property leave its value alone. -/
theorem BoundOnce.value?_applyContexts (h : store.BoundOnce) {name : String}
    (hnothing : ∀ context ∈ contexts, store.DrawsNothing g name context) :
    (store.applyContexts g busy contexts).value? name = store.value? name := by
  induction contexts generalizing store with
  | nil => rfl
  | cons context contexts ih =>
    have hfirst := (h.takesContext g busy context).kept name (hnothing context List.mem_cons_self)
    refine (ih (h.applyContexts g busy [context]) fun later hlater => ?_).trans hfirst
    exact hnothing later (List.mem_cons_of_mem _ hlater)

/-- Each context is taken by the store that the ones before it have left. -/
theorem BoundOnce.takesContext_take (h : store.BoundOnce) (g : Graph) (busy : List ObjectId)
    (contexts : List BindingContext) {i : Nat} (hcontext : contexts[i]? = some context) :
    TakesContext g context
      (store.applyContexts g busy (contexts.take i))
        (store.applyContexts g busy (contexts.take (i + 1))) := by
  rw [List.take_add_one, hcontext, Option.toList_some, applyContexts_append]
  exact (h.applyContexts g busy (contexts.take i)).takesContext g busy context

/-- A value that was drawn stays if the contexts behind draw none. -/
theorem BoundOnce.value?_of_drawn (h : store.BoundOnce) {name : String} {bound : BoundProperty}
    {value : Value} (hbound : store.bindings.get? name = some bound)
    (hreads : bound.binding.mode.readsSource = true) {i : Nat}
    (hcontext : contexts[i]? = some context) (hdrawn : bound.drawn? g context = some value)
    (hlater : ∀ (j : Nat) later, i < j → contexts[j]? = some later →
      store.DrawsNothing g name later) :
    (store.applyContexts g busy contexts).value? name = some value := by
  have hbindings := bindings_applyContexts store g busy (contexts.take i)
  have htaken := (h.takesContext_take g busy contexts hcontext).drawn name bound value
    (hbindings ▸ hbound) hreads hdrawn
  rw [← htaken]
  -- what comes behind the context has nothing for the property
  have hbehind : ∀ later ∈ contexts.drop (i + 1),
      (store.applyContexts g busy (contexts.take (i + 1))).DrawsNothing g name later := by
    intro later hmem
    obtain ⟨j, hj⟩ := List.mem_iff_getElem?.1 hmem
    rw [List.getElem?_drop] at hj
    rw [DrawsNothing, bindings_applyContexts]
    exact hlater (i + 1 + j) later (by omega) hj
  calc (store.applyContexts g busy contexts).value? name
      = ((store.applyContexts g busy (contexts.take (i + 1))).applyContexts g busy
        (contexts.drop (i + 1))).value?
          name := by rw [← applyContexts_append, List.take_append_drop]
    _ = (store.applyContexts g busy (contexts.take (i + 1))).value? name :=
        (h.applyContexts g busy (contexts.take (i + 1))).value?_applyContexts hbehind

end Sequences

/-- **The last context that has something for a property counts.** Take any store and any contexts,
applied one after the other. The bindings stay. A property whose binding reads the source has the
value that was drawn from the last context from which one could be drawn, that is, which has a value
under the path such that the converted one fits; and the value that it had at first, or none, if
there is no such context. Any other property keeps its value. And each context is taken as
`TakesContext` says: values keep their places, a value that is missing or does not fit alters
nothing, and a context that is applied twice is applied once. -/
theorem applyContexts_exact {store : PropertyStore} (h : store.BoundOnce) (g : Graph)
    (busy : List ObjectId) (contexts : List BindingContext) :
    let final := store.applyContexts g busy contexts
    final.bindings = store.bindings ∧
      (∀ name bound, store.bindings.get? name = some bound → bound.binding.mode.readsSource = true →
        (∀ (i : Nat) context value, contexts[i]? = some context →
          bound.drawn? g context = some value →
          (∀ (j : Nat) later, i < j → contexts[j]? = some later → bound.drawn? g later = none) →
          final.value? name = some value) ∧
        ((∀ context ∈ contexts, bound.drawn? g context = none) →
          final.value? name = store.value? name)) ∧
      (∀ name, (∀ bound, store.bindings.get? name = some bound →
        bound.binding.mode.readsSource = false) → final.value? name = store.value? name) ∧
      ∀ (i : Nat) context, contexts[i]? = some context → TakesContext g context
        (store.applyContexts g busy (contexts.take i))
          (store.applyContexts g busy (contexts.take (i + 1))) := by
  intro final
  have hnothing : ∀ name bound, store.bindings.get? name = some bound →
      ∀ context, bound.drawn? g context = none → store.DrawsNothing g name context := by
    intro name bound hbound context hnone other hother _
    rw [hbound] at hother
    cases hother
    exact hnone
  refine ⟨bindings_applyContexts store g busy contexts, fun name bound hbound hreads =>
    ⟨?_, fun hnone => ?_⟩,
    fun name hreads => ?_, fun i context hcontext => h.takesContext_take g busy contexts hcontext⟩
  · intro i context value hcontext hdrawn hlater
    exact h.value?_of_drawn hbound hreads hcontext hdrawn fun j later hlt hj =>
      hnothing name bound hbound later (hlater j later hlt hj)
  · exact h.value?_applyContexts fun context hmem =>
      hnothing name bound hbound context (hnone context hmem)
  · refine h.value?_applyContexts fun context _ bound hbound hread => ?_
    rw [hreads bound hbound] at hread
    cases hread

/-- A font size and two bindings, one of them for the font size. -/
def sizedText : PropertyStore :=
  ((empty.setValue ⟨"FontSize", "Label", .float⟩ (.float 12)).setBinding ⟨"Text", "Label", .text⟩
    ⟨"Name", none, .default⟩).setBinding ⟨"FontSize", "Label", .float⟩ ⟨"Size", none, .oneWay⟩

/-- A size that fits with a name, and then a size that does not fit. -/
def twoSizes : List BindingContext :=
  [.ofList [("Size", .int 18), ("Name", .text "Ann")], .ofList [("Size", .text "huge")]]

/-- The size and the text are those of the first context, and the size keeps its place before the
text. -/
theorem applyContexts_exact_sizedText :
    let final := sizedText.applyContexts .empty [] twoSizes
    sizedText.BoundOnce ∧ final.value? "FontSize" = some (.float (18 : Int64).toFloat) ∧
      final.value? "Text" = some (.text "Ann") ∧
      (sizedText.applyContexts .empty [] (twoSizes.take 1)).values.keys = ["FontSize", "Text"] := by
  have honce : sizedText.BoundOnce := (boundOnce_empty.setBinding _ _).setBinding _ _
  obtain ⟨-, hvalues, -, hstep⟩ := applyContexts_exact honce .empty [] twoSizes
  -- neither property draws anything from the second context
  have hlater : ∀ (j : Nat) (later : BindingContext) (bound : BoundProperty), 0 < j →
      twoSizes[j]? = some later →
      bound.drawn? .empty (.ofList [("Size", .text "huge")]) = none →
      bound.drawn? .empty later = none := by
    intro j later bound hpos hj hnone
    match j, hpos with
    | 1, _ => cases hj; exact hnone
    | j + 2, _ => cases hj
  refine ⟨honce, ?_, ?_, (hstep 0 _ rfl).order⟩
  · exact (hvalues "FontSize" _ rfl rfl).1 0 _ _ rfl rfl fun j later hpos hj =>
      hlater j later _ hpos hj rfl
  · exact (hvalues "Text" _ rfl rfl).1 0 _ _ rfl rfl fun j later hpos hj =>
      hlater j later _ hpos hj rfl

end PropertyStore

end MarkupForms
