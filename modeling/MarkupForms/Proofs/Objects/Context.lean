import MarkupForms.Objects.Context
import MarkupForms.Proofs.Objects.Graph

/-!
# What a change of context keeps

Setting a context writes to objects in three ways: it evaluates the bindings of an object, it
replaces the rows of an object, and it stamps a row. A property of single objects that survives
these three survives the whole walk, with all the rows that are stamped on the way
(`Graph.All.setContext`).
-/

namespace MarkupForms

/-! ## The walk -/

/-- A property of objects that a change of context cannot break. -/
structure KeptByContext (Q : Component → Prop) : Prop where
  applyContext (c : Component) (g : Graph) (busy : List ObjectId) (context : BindingContext) :
    Q c → Q (c.applyContext g busy context).1
  rows (c : Component) (rows : List ObjectId) : Q c → Q { c with rows := some rows }
  /-- A row is a new object of the template's type with the template's store. -/
  stamped (template : Component) (store : PropertyStore) (state : ObjectState) : Q template →
    template.store = some store → template.type.constructor = some state →
    Q { state with store := state.store.map fun _ => store, type := template.type }

/-- Whatever the filling of an object yields has the property everywhere. -/
def Fills (Q : Component → Prop) (fill : BindingContext → ObjectId → Walk → Option Walk) : Prop :=
  ∀ context id walk done, walk.graph.All Q → fill context id walk = some done → done.graph.All Q

section Walks

variable {Q : Component → Prop} {fill : BindingContext → ObjectId → Walk → Option Walk}

theorem Walk.all_setRows (hQ : KeptByContext Q) {walk : Walk} (h : walk.graph.All Q) (id : ObjectId)
    (rows : List ObjectId) : (walk.setRows id rows).graph.All Q :=
  h.modify (fun c hc => hQ.rows c rows hc) id

theorem all_stampRecords (hfill : Fills Q fill) {blank : Component} (hblank : Q blank)
    {records : List BindingContext} {walk done : Walk} {rows : List ObjectId}
    (hwalk : walk.graph.All Q) (h : stampRecords fill blank records walk = some (rows, done)) :
    done.graph.All Q := by
  induction records generalizing walk rows with
  | nil => cases h; exact hwalk
  | cons record records ih =>
    rw [stampRecords] at h
    obtain ⟨filled, hfilled, hrest⟩ := Option.bind_eq_some_iff.1 h
    obtain ⟨⟨others, last⟩, hothers, hlast⟩ := Option.map_eq_some_iff.1 hrest
    cases hlast
    exact ih (hfill record _ _ filled (hwalk.alloc hblank) hfilled) hothers

theorem all_stampFrom (hQ : KeptByContext Q) (hfill : Fills Q fill) {template : Component}
    (htemplate : Q template) {records : List BindingContext} {walk done : Walk}
    {rows : List ObjectId} (hwalk : walk.graph.All Q)
    (h : stampFrom fill template records walk = some (rows, done)) :
    done.graph.All Q := by
  cases hstore : template.store with
  | none => simp only [stampFrom, hstore] at h; cases h; exact hwalk
  | some store =>
    cases records with
    | nil => simp only [stampFrom, hstore] at h; cases h; exact hwalk
    | cons record records =>
      -- every row starts as the same blank object, with the template's store
      cases hconstructor : template.type.constructor with
      | none => simp only [stampFrom, hstore, hconstructor] at h; cases h; exact hwalk
      | some state =>
        simp only [stampFrom, hstore, hconstructor] at h
        have hblank := hQ.stamped template store state htemplate hstore hconstructor
        exact all_stampRecords hfill hblank hwalk h

theorem all_stampRows (hQ : KeptByContext Q) (hfill : Fills Q fill) {id : ObjectId}
    {walk done : Walk} (hwalk : walk.graph.All Q) (h : stampRows fill id walk = some done) :
    done.graph.All Q := by
  unfold stampRows at h
  cases hc : walk.graph.component? id with
  | none => rw [hc] at h; cases h; exact hwalk
  | some c =>
    rw [hc] at h
    have hcleared : (walk.setRows id []).graph.All Q := Walk.all_setRows hQ hwalk id []
    dsimp only at h
    split at h
    · cases h; exact hwalk
    · split at h
      · next template records htemplate _ =>
        obtain ⟨template?, _, hread⟩ := Option.bind_eq_some_iff.1 htemplate
        obtain ⟨⟨rows, stamped⟩, hstamp, hdone⟩ := Option.map_eq_some_iff.1 h
        cases hdone
        have hstamped := all_stampFrom hQ hfill (hwalk _ template hread) hcleared hstamp
        exact Walk.all_setRows hQ hstamped id rows
      · cases h; exact hcleared

/-- What an update that is not blocked comes to. -/
theorem updateObject_eq_some {busy : List ObjectId} {context : BindingContext} {id : ObjectId}
    {c : Component} {walk done : Walk} (h : updateObject fill busy context id c walk = some done) :
    stampRows fill id ⟨walk.graph.set id (c.applyContext walk.graph (id :: busy) context).1,
      walk.warnings ++ (c.applyContext walk.graph (id :: busy) context).2⟩ = some done :=
  (Option.ite_none_left_eq_some.1 h).2

/-- Filling several objects, from left to right. -/
theorem Fills.children (hfill : Fills Q fill) {context : BindingContext} {children : List ObjectId}
    {walk done : Walk} (hwalk : walk.graph.All Q)
    (h : children.foldlM (fun walk child => fill context child walk) walk = some done) :
    done.graph.All Q := by
  induction children generalizing walk with
  | nil => cases h; exact hwalk
  | cons child children ih =>
    rw [List.foldlM_cons] at h
    obtain ⟨next, hnext, hothers⟩ := Option.bind_eq_some_iff.1 h
    exact ih (hfill context child walk next hwalk hnext) hothers

/-- The walk below one object, by induction on its bound: the calls inside it have a smaller one,
also those that fill the rows. -/
theorem all_propagate (hQ : KeptByContext Q) (bound : Nat) (busy : List ObjectId) :
    Fills Q (propagate bound busy) := by
  induction bound generalizing busy with
  | zero => intro context id walk done _ h; cases h
  | succ bound ih =>
    intro context id walk done hwalk h
    rw [propagate] at h
    cases hc : walk.graph.component? id with
    | none => rw [hc] at h; cases h; exact hwalk
    | some c =>
      rw [hc] at h
      obtain ⟨stamped, hstamped, hchildren⟩ := Option.bind_eq_some_iff.1 h
      have happlied := hQ.applyContext c walk.graph (id :: busy) context (hwalk id c hc)
      -- while the rows are filled this object counts as busy, unlike for its children
      have hrows := all_stampRows hQ (ih (id :: busy)) (hwalk.set happlied id)
        (updateObject_eq_some hstamped)
      exact (ih busy).children hrows hchildren

/-- **A change of context keeps what its writes keep**, on every object and every stamped row. -/
theorem Graph.All.setContext (hQ : KeptByContext Q) {g : Graph} (h : g.All Q) (root : ObjectId)
    (context : BindingContext) : (g.setContext root context).1.All Q := by
  unfold Graph.setContext
  cases hwalk : propagate (walkBound g) [] context root ⟨g, []⟩ with
  | none => exact h
  | some walk => exact all_propagate hQ _ [] context root ⟨g, []⟩ walk h hwalk

end Walks

end MarkupForms
