import MarkupForms.Proofs.Objects.Given
import MarkupForms.Proofs.Objects.Rows

/-!
# Updates of single objects

An update goes through where nothing that it may need is busy; the object takes its values then, and
stamps its rows. If it has no records to stamp rows for, the update is a single write.
-/

namespace MarkupForms

/-! ## Updates that are not blocked -/

namespace Component

/-- Nothing that the update of the object may need is busy: not the object `id` itself, none of the
converters of its bindings and, if it stamps rows, not its template. -/
structure Unblocked (c : Component) (id : ObjectId) (busy : List ObjectId) : Prop where
  idle : id ∉ busy
  converters (x : ObjectId) : x ∈ c.converters → x ∉ id :: busy
  template (t : ObjectId) : c.rows.isSome = true → c.itemTemplate? = some t → t ∉ id :: busy

/-- The converters that are asked are among those that the bindings name. -/
theorem consulted_subset_converters (c : Component) (context : BindingContext) :
    c.consulted context ⊆ c.converters := by
  rw [ObjectState.consulted, ObjectState.converters]
  cases c.store with
  | none => exact List.nil_subset _
  | some store =>
    intro x hx
    obtain ⟨bound, hbound, hconverter⟩ := List.mem_filterMap.1 hx
    refine List.mem_filterMap.2 ⟨bound, hbound, ?_⟩
    unfold BoundProperty.converter? at hconverter
    split at hconverter
    · exact hconverter
    · cases hconverter

namespace Unblocked

variable {c : Component} {id : ObjectId} {busy : List ObjectId}

theorem blocked_given (h : c.Unblocked id busy) (g : Graph) (context : BindingContext) :
    c.blocked (c.given g context) context id busy = false := by
  have hidle : busy.contains id = false :=
    Bool.eq_false_iff.2 fun hmem => h.idle (List.contains_iff_mem.1 hmem)
  have hconverters : (c.consulted context).any (id :: busy).contains = false := by
    refine List.any_eq_false.2 fun x hx hmem => ?_
    exact h.converters x (c.consulted_subset_converters context hx) (List.contains_iff_mem.1 hmem)
  have hcopied : (c.given g context).copied?.any (id :: busy).contains = false := by
    rw [Option.any_eq_false]
    intro t ht
    obtain ⟨hstamps, htemplate⟩ := Option.ite_none_right_eq_some.1 ht
    rw [itemTemplate?_given] at htemplate
    rw [given_eq] at hstamps
    refine Bool.eq_false_iff.2 fun hmem => ?_
    exact h.template t (Bool.and_eq_true_iff.1 hstamps).1 htemplate (List.contains_iff_mem.1 hmem)
  rw [blocked, hidle, hconverters, hcopied]
  rfl

/-- **An update that is not blocked**: the object takes its values, and then its rows are
stamped. -/
theorem updateObject_eq (h : c.Unblocked id busy)
    (fill : BindingContext → ObjectId → Walk → Option Walk) (context : BindingContext)
    (walk : Walk) :
    updateObject fill busy context id c walk =
      stampRows fill id ⟨walk.graph.set id (c.given walk.graph context),
      walk.warnings ++ (c.applyContext walk.graph (id :: busy) context).2⟩ := by
  have happlied : (c.applyContext walk.graph (id :: busy) context).1 = c.given walk.graph context :=
    applyContext_eq_given (fun _ _ => rfl) _
  have hblocked := h.blocked_given walk.graph context
  unfold updateObject
  dsimp only
  rw [happlied, hblocked, if_neg Bool.false_ne_true]

/-- An object without converters and template needs itself only. -/
theorem of_none (hidle : id ∉ busy) (hconverters : c.converters = [])
    (htemplate : c.itemTemplate? = none) :
    c.Unblocked id busy where
  idle := hidle
  converters x hx := by
    rw [hconverters] at hx
    cases hx
  template t _ ht := by
    rw [htemplate] at ht
    cases ht

/-- Losing references blocks nothing. -/
theorem prunes (h : c.Unblocked id busy) {pruned : Component} (hprunes : c.Prunes pruned) :
    pruned.Unblocked id busy where
  idle := h.idle
  converters := hprunes.converters ▸ h.converters
  template t hstamps ht := h.template t (hprunes.stamps ▸ hstamps) (hprunes.itemTemplate? ▸ ht)

end Unblocked

/-! ## Updates without rows -/

/-- The row that a blank row becomes, filled from its record. -/
def filled (blank : Component) (g : Graph) (record : BindingContext) : Component :=
  { blank.given g record with rows := blank.rows.map fun _ => [] }

/-- The object has no records to stamp rows for. -/
def Stampless (c : Component) : Prop :=
  c.rows.isSome = true → c.itemTemplate? = none ∨ c.itemsSource?.getD [] = []

theorem stampRows_of_stampless (walk : Walk) {id : ObjectId} {c : Component}
    (hread : walk.graph.component? id = some c) (h : c.Stampless) :
    ∃ warnings, ∀ fill, stampRows fill id walk =
      some ⟨walk.graph.set id { c with rows := c.rows.map fun _ => [] }, warnings⟩ := by
  cases hrows : c.rows with
  | none =>
    have hsame : ({ c with rows := (none : Option (List ObjectId)).map fun _ => [] } :
        Component) = c := by
      rw [Option.map_none, ← hrows]
    refine ⟨walk.warnings, fun fill => ?_⟩
    rw [hsame, Graph.set_self hread]
    apply stampRows_of_none
    intro own hown
    rw [hread] at hown
    cases hown
    exact hrows
  | some rows =>
    have hnone : c.rowRecords walk.graph = [] := by
      rcases h (hrows ▸ rfl) with htemplate | hrecords
      · rw [Component.rowRecords, Component.blankRow?, htemplate]
        rfl
      · rw [Component.rowRecords, hrecords]
        exact ite_self []
    have hstamp := stampRows_of_noRecords walk hread hnone
    rw [hrows] at hstamp
    exact hstamp

variable {g other : Graph} {context : BindingContext}

theorem filled_congr {c : Component} (h : other.ConvertsAs g c.converters) :
    c.filled other context = c.filled g context := by
  rw [filled, filled, given_congr h]

/-- An object that has had its turn has nothing more to take. -/
theorem given_filled (c : Component) (g : Graph) (context : BindingContext) :
    (c.filled g context).given g context = c.filled g context := by
  rw [filled, given_setRows, given_given]

theorem filled_filled (c : Component) (g : Graph) (context : BindingContext) :
    (c.filled g context).filled g context = c.filled g context := by
  have hrows : ((c.filled g context).rows.map fun _ => []) = (c.filled g context).rows := by
    show (c.rows.map fun _ => []).map (fun _ => []) = c.rows.map fun _ => []
    rw [Option.map_map]
    rfl
  rw [filled, given_filled, hrows]

theorem converters_filled (c : Component) (g : Graph) (context : BindingContext) :
    (c.filled g context).converters = c.converters := by
  rw [filled, given_eq, ObjectState.converters, ObjectState.converters]
  cases c.store <;> rfl

theorem converter_filled (c : Component) (g : Graph) (context : BindingContext) :
    (c.filled g context).converter = c.converter := by
  rw [filled, given_eq]

theorem Unblocked.filled {c : Component} {id : ObjectId} {busy : List ObjectId}
    (h : c.Unblocked id busy) :
    (c.filled g context).Unblocked id busy where
  idle := h.idle
  converters := (converters_filled c g context).symm ▸ h.converters
  template t hrows htemplate := by
    have hsame : (c.filled g context).itemTemplate? = c.itemTemplate? :=
      itemTemplate?_given c g context
    exact h.template t (Option.isSome_map.symm.trans hrows) (hsame ▸ htemplate)

theorem Stampless.filled {c : Component} (h : (c.given g context).Stampless) :
    (c.filled g context).Stampless := by
  intro hrows
  apply h
  rw [given_eq]
  exact Option.isSome_map.symm.trans hrows

/-- **An update without rows**: the object takes its values and drops the rows that it has. -/
theorem updateObject_of_stampless (walk : Walk) {id : ObjectId} {busy : List ObjectId}
    {c : Component} (context : BindingContext) (hread : walk.graph.component? id = some c)
    (hunblocked : c.Unblocked id busy) (hstampless : (c.given walk.graph context).Stampless) :
    ∃ warnings, ∀ fill, updateObject fill busy context id c walk =
      some ⟨walk.graph.set id (c.filled walk.graph context), warnings⟩ := by
  have hself := Graph.component?_set_self hread (c.given walk.graph context)
  obtain ⟨warnings, hstamp⟩ :=
    stampRows_of_stampless ⟨walk.graph.set id (c.given walk.graph context),
    walk.warnings ++ (c.applyContext walk.graph (id :: busy) context).2⟩ hself hstampless
  have hfilled : ({ c.given walk.graph context with
      rows := (c.given walk.graph context).rows.map fun _ => [] } :
      Component) = c.filled walk.graph context := by
    rw [filled, given_eq]
  refine ⟨warnings, fun fill => ?_⟩
  rw [hunblocked.updateObject_eq, hstamp]
  dsimp only
  rw [Graph.set_set, hfilled]

end Component

/-- **A turn without rows**: the object takes its values, and the walk goes on to what is nested in
it now. -/
theorem propagate_of_stampless (walk : Walk) {id : ObjectId} {busy : List ObjectId} {c : Component}
    (context : BindingContext) (hread : walk.graph.component? id = some c)
    (hunblocked : c.Unblocked id busy) (hstampless : (c.given walk.graph context).Stampless)
    (bound : Nat) :
    ∃ warnings, propagate (bound + 1) busy context id walk =
      (c.given walk.graph context).nested.foldlM
        (fun walk child => propagate bound busy context child walk)
        ⟨walk.graph.set id (c.filled walk.graph context), warnings⟩ := by
  obtain ⟨warnings, hupdate⟩ :=
    Component.updateObject_of_stampless walk context hread hunblocked hstampless
  refine ⟨warnings, ?_⟩
  rw [propagate, hread]
  dsimp only
  rw [hupdate, Option.bind_some]
  dsimp only
  rw [Graph.nested, Graph.component?_set_self hread]
  rfl

end MarkupForms
