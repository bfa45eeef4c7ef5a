import MarkupForms.Objects.Context
import MarkupForms.Proofs.Objects.Graph

/-!
# Stamping rows

Whatever fills the rows, an object stamps them in one way: it drops those that it has, allocates and
fills one copy of the same blank object for each of its records, from left to right, and takes these
as its rows. So what holds of the graph while rows are filled is an invariant of one loop
(`stampRows_total`).
-/

namespace MarkupForms

/-- What every row made from a template is before it is filled: a new object of the template's type
with the template's values and bindings. -/
def Component.blankCopy? (template : Component) : Option Component :=
  template.store.bind fun store =>
    template.type.constructor.map fun state =>
      { state with store := state.store.map fun _ => store, type := template.type }

/-- What every row of an object is before it is filled. -/
def Component.blankRow? (c : Component) (g : Graph) : Option Component :=
  (c.itemTemplate?.bind g.component?).bind Component.blankCopy?

/-- The records for which an object has rows: none if there is no blank row. -/
def Component.rowRecords (c : Component) (g : Graph) : List BindingContext :=
  if (c.blankRow? g).isSome then c.itemsSource?.getD [] else []

/-- Where a blank row comes from. -/
theorem Component.blankRow?_eq_some {c blank : Component} {g : Graph}
    (h : c.blankRow? g = some blank) :
    ∃ id template store state, c.itemTemplate? = some id ∧ g.component? id = some template ∧
      template.store = some store ∧ template.type.constructor = some state ∧
      blank = { state with store := state.store.map fun _ => store, type := template.type } := by
  obtain ⟨template, htemplate, h⟩ := Option.bind_eq_some_iff.1 h
  obtain ⟨id, hid, hread⟩ := Option.bind_eq_some_iff.1 htemplate
  obtain ⟨store, hstore, h⟩ := Option.bind_eq_some_iff.1 h
  obtain ⟨state, hstate, rfl⟩ := Option.map_eq_some_iff.1 h
  exact ⟨id, template, store, state, hid, hread, hstore, hstate, rfl⟩

theorem Component.mem_rowRecords {c : Component} {g : Graph} {record : BindingContext}
    (h : record ∈ c.rowRecords g) : ∃ records, c.itemsSource? = some records ∧
    record ∈ records := by
  unfold Component.rowRecords at h
  split at h
  · cases hrecords : c.itemsSource? with
    | none => rw [hrecords] at h; cases h
    | some records => rw [hrecords] at h; exact ⟨records, rfl, h⟩
  · cases h

namespace Walk

theorem graph_setRows {walk : Walk} {id : ObjectId} {c : Component}
    (h : walk.graph.component? id = some c) (rows : List ObjectId) :
    (walk.setRows id rows).graph = walk.graph.set id { c with rows := some rows } := by
  rw [setRows, Graph.modify_of_component? h]

/-- Setting the rows that an object has. -/
theorem setRows_self {walk : Walk} {id : ObjectId} {c : Component}
    (h : walk.graph.component? id = some c) {rows : List ObjectId} (hrows : c.rows = some rows) :
    walk.setRows id rows = walk := by
  have hc : ({ c with rows := some rows } : Component) = c := by
    rw [← hrows]
  have hgraph := graph_setRows h rows
  rw [hc, Graph.set_self h] at hgraph
  exact congrArg (Walk.mk · walk.warnings) hgraph

end Walk

section Stamping

variable {walk : Walk} {id : ObjectId} {c : Component}

/-- An object that stamps no rows stays as it is. -/
theorem stampRows_of_none (fill : BindingContext → ObjectId → Walk → Option Walk)
    (h : ∀ c, walk.graph.component? id = some c → c.rows = none) :
    stampRows fill id walk = some walk := by
  unfold stampRows
  cases hread : walk.graph.component? id with
  | none => rfl
  | some c =>
    dsimp only
    rw [h c hread]
    rfl

/-- Rows are filled for all records or, if there is no blank row, for none; the warnings say why. -/
theorem stampFrom_eq (template : Component) (records : List BindingContext) (walk : Walk) :
    ∃ blank warnings,
      (∀ own, template.blankCopy? = some own → blank = own) ∧
      ∀ fill, stampFrom fill template records walk =
        stampRecords fill blank (if template.blankCopy?.isSome then records else [])
          ⟨walk.graph, warnings⟩ := by
  unfold Component.blankCopy? stampFrom
  cases hstore : template.store with
  | none =>
    refine ⟨template, _, fun own hown => ?_, fun fill => rfl⟩
    cases hown
  | some store =>
    cases hconstructor : template.type.constructor with
    | none =>
      -- without records no one notices that the type cannot be constructed
      cases records with
      | nil => exact ⟨template, walk.warnings, fun own hown => (by cases hown), fun fill => rfl⟩
      | cons record records => exact ⟨template, _, fun own hown => (by cases hown), fun fill => rfl⟩
    | some state =>
      refine ⟨_, walk.warnings, fun own hown => Option.some.inj hown, fun fill => ?_⟩
      cases records <;> rfl

/-- An object with a template and records takes new rows. -/
theorem stampRows_of_records (fill : BindingContext → ObjectId → Walk → Option Walk)
    (hread : walk.graph.component? id = some c) (hrows : c.rows.isSome = true)
    {template : Component} (htemplate : c.itemTemplate?.bind walk.graph.component? = some template)
    {records : List BindingContext} (hrecords : c.itemsSource? = some records) :
    stampRows fill id walk = (stampFrom fill template records (walk.setRows id [])).map
      fun result => result.2.setRows id result.1 := by
  have hstamps : c.rows.isNone = false := Option.isNone_eq_false_iff.2 hrows
  unfold stampRows
  rw [hread]
  dsimp only
  rw [hstamps, htemplate, hrecords]
  rfl

/-- An object without a template or without records only drops its rows. -/
theorem stampRows_of_missing (fill : BindingContext → ObjectId → Walk → Option Walk)
    (hread : walk.graph.component? id = some c) (hrows : c.rows.isSome = true)
    (hmissing : c.itemTemplate?.bind walk.graph.component? = none ∨ c.itemsSource? = none) :
    stampRows fill id walk = some (walk.setRows id []) := by
  have hstamps : c.rows.isNone = false := Option.isNone_eq_false_iff.2 hrows
  unfold stampRows
  rw [hread]
  dsimp only
  rw [hstamps]
  rcases hmissing with hnone | hnone
  · rw [hnone]
    rfl
  · rw [hnone]
    cases c.itemTemplate?.bind walk.graph.component? <;> rfl

/-- **How an object stamps its rows**, whatever fills them. -/
theorem stampRows_eq (hread : walk.graph.component? id = some c) (hrows : c.rows.isSome = true) :
    ∃ blank warnings,
      (∀ own, c.blankRow? walk.graph = some own → blank = own) ∧
      ∀ fill, stampRows fill id walk =
        (stampRecords fill blank (c.rowRecords walk.graph)
          ⟨walk.graph.set id { c with rows := some [] }, warnings⟩).map
            fun result => result.2.setRows id result.1 := by
  have hcleared : walk.setRows id [] = ⟨walk.graph.set id { c with rows := some [] },
      walk.warnings⟩ :=
    congrArg (Walk.mk · walk.warnings) (Walk.graph_setRows hread [])
  -- without records to fill rows for, the rows stay dropped
  have hempty : c.rowRecords walk.graph = [] →
      (c.itemTemplate?.bind walk.graph.component? = none ∨ c.itemsSource? = none) →
      ∀ blank fill, stampRows fill id walk =
        (stampRecords fill blank (c.rowRecords walk.graph)
          ⟨walk.graph.set id { c with rows := some [] }, walk.warnings⟩).map
            fun result => result.2.setRows id result.1 := by
    intro hnone hmissing blank fill
    have hagain : (walk.setRows id []).setRows id [] = walk.setRows id [] := by
      rw [hcleared]
      exact Walk.setRows_self (Graph.component?_set_self hread _) rfl
    rw [stampRows_of_missing fill hread hrows hmissing, hnone, stampRecords, ← hcleared]
    exact congrArg some hagain.symm
  cases htemplate : c.itemTemplate?.bind walk.graph.component? with
  | none =>
    have hblank : c.blankRow? walk.graph = none := by rw [Component.blankRow?, htemplate]; rfl
    have hnone : c.rowRecords walk.graph = [] := by rw [Component.rowRecords, hblank]; rfl
    refine ⟨c, walk.warnings, fun own hown => ?_, hempty hnone (Or.inl htemplate) c⟩
    rw [hblank] at hown
    cases hown
  | some template =>
    have hblank : c.blankRow? walk.graph = template.blankCopy? := by
      rw [Component.blankRow?, htemplate]; rfl
    obtain ⟨blank, warnings, hown, hstamp⟩ :=
      stampFrom_eq template (c.itemsSource?.getD []) (walk.setRows id [])
    cases hrecords : c.itemsSource? with
    | none =>
      have hnone : c.rowRecords walk.graph = [] := by
        rw [Component.rowRecords, hrecords]; exact ite_self []
      exact ⟨blank, walk.warnings, hblank ▸ hown, hempty hnone (Or.inr hrecords) blank⟩
    | some records =>
      refine ⟨blank, warnings, hblank ▸ hown, fun fill => ?_⟩
      rw [stampRows_of_records fill hread hrows htemplate hrecords, Component.rowRecords,
        hrecords, hblank]
      have hgraph := Walk.graph_setRows hread []
      rw [hrecords, hgraph] at hstamp
      exact congrArg (Option.map fun (result : List ObjectId × Walk) =>
        result.2.setRows id result.1) (hstamp fill)

/-- An object without records drops the rows that it has. -/
theorem stampRows_of_noRecords (walk : Walk) (hread : walk.graph.component? id = some c)
    (hnone : c.rowRecords walk.graph = []) :
    ∃ warnings, ∀ fill, stampRows fill id walk =
      some ⟨walk.graph.set id { c with rows := c.rows.map fun _ => [] }, warnings⟩ := by
  cases hrows : c.rows with
  | none =>
    have hsame : ({ c with rows := (none : Option (List ObjectId)).map fun _ => [] } :
        Component) = c := by
      rw [Option.map_none, ← hrows]
    refine ⟨walk.warnings, fun fill => ?_⟩
    rw [hsame, Graph.set_self hread]
    apply stampRows_of_none
    intro own hown
    rw [hread] at hown
    cases hown
    exact hrows
  | some rows =>
    obtain ⟨blank, warnings, -, hstamp⟩ := stampRows_eq hread (hrows ▸ rfl)
    refine ⟨warnings, fun fill => ?_⟩
    rw [hstamp, hnone, stampRecords]
    exact congrArg some (Walk.setRows_self (Graph.component?_set_self hread _) rfl)

/-! ## The loop over the records -/

/-- A fill that gives up more often fills the rows alike where it does not give up. -/
theorem stampRecords_mono {fill other : BindingContext → ObjectId → Walk → Option Walk}
    (hfill : ∀ record row walk filled, fill record row walk = some filled →
      other record row walk = some filled)
    {blank : Component} {records : List BindingContext} {walk : Walk}
    {result : List ObjectId × Walk} (h : stampRecords fill blank records walk = some result) :
    stampRecords other blank records walk = some result := by
  induction records generalizing walk result with
  | nil => exact h
  | cons record records ih =>
    rw [stampRecords] at h ⊢
    obtain ⟨filled, hfilled, hrest⟩ := Option.bind_eq_some_iff.1 h
    obtain ⟨others, hothers, rfl⟩ := Option.map_eq_some_iff.1 hrest
    refine Option.bind_eq_some_iff.2 ⟨filled, hfill _ _ _ _ hfilled, ?_⟩
    exact Option.map_eq_some_iff.2 ⟨others, ih hothers, rfl⟩

theorem stampRows_mono {fill other : BindingContext → ObjectId → Walk → Option Walk}
    (hfill : ∀ record row walk filled, fill record row walk = some filled →
      other record row walk = some filled)
    {done : Walk} (h : stampRows fill id walk = some done) :
    stampRows other id walk = some done := by
  by_cases hstamps : ∃ c, walk.graph.component? id = some c ∧ c.rows.isSome = true
  · obtain ⟨c, hread, hrows⟩ := hstamps
    obtain ⟨blank, warnings, -, hstamp⟩ := stampRows_eq hread hrows
    rw [hstamp] at h ⊢
    obtain ⟨result, hresult, rfl⟩ := Option.map_eq_some_iff.1 h
    exact Option.map_eq_some_iff.2 ⟨result, stampRecords_mono hfill hresult, rfl⟩
  · have hnone : ∀ c, walk.graph.component? id = some c → c.rows = none := by
      intro c hread
      rw [← Option.not_isSome_iff_eq_none]
      exact fun hrows => hstamps ⟨c, hread, hrows⟩
    rw [stampRows_of_none _ hnone] at h ⊢
    exact h

theorem updateObject_mono {fill other : BindingContext → ObjectId → Walk → Option Walk}
    (hfill : ∀ record row walk filled, fill record row walk = some filled →
      other record row walk = some filled)
    {busy : List ObjectId} {context : BindingContext} {c : Component} {done : Walk}
    (h : updateObject fill busy context id c walk = some done) :
    updateObject other busy context id c walk = some done := by
  obtain ⟨hfree, hstamp⟩ := Option.ite_none_left_eq_some.1 h
  exact Option.ite_none_left_eq_some.2 ⟨hfree, stampRows_mono hfill hstamp⟩

section Loop

variable {I : List (BindingContext × ObjectId) → Graph → Prop}

/-- **The loop ends** if filling does, and keeps what filling one more row keeps. -/
theorem stampRecords_total {fill : BindingContext → ObjectId → Walk → Option Walk}
    {blank : Component} {records : List BindingContext}
    (hfill : ∀ record ∈ records, ∀ made (walk : Walk), I made walk.graph →
      ∃ filled, fill record (walk.graph.alloc blank).1
        { walk with graph := (walk.graph.alloc blank).2 } =
          some filled ∧ I (made ++ [(record, (walk.graph.alloc blank).1)]) filled.graph)
    {made : List (BindingContext × ObjectId)} (walk : Walk) (hstart : I made walk.graph) :
    ∃ rows, ∃ done : Walk, stampRecords fill blank records walk = some (rows, done) ∧
      rows.length = records.length ∧ I (made ++ records.zip rows) done.graph := by
  induction records generalizing made walk with
  | nil => exact ⟨[], walk, rfl, rfl, (List.append_nil made).symm ▸ hstart⟩
  | cons record records ih =>
    obtain ⟨filled, hfilled, hnext⟩ := hfill record List.mem_cons_self made walk hstart
    obtain ⟨rows, done, hrows, hlength, hdone⟩ :=
      ih (fun other hmem => hfill other (List.mem_cons_of_mem _ hmem)) filled hnext
    refine ⟨(walk.graph.alloc blank).1 :: rows, done, ?_, congrArg Nat.succ hlength, ?_⟩
    · rw [stampRecords]
      refine Option.bind_eq_some_iff.2 ⟨filled, hfilled, ?_⟩
      rw [hrows]
      rfl
    · rw [List.append_assoc] at hdone
      exact hdone

/-- **Stamping ends** if filling does. The invariant knows the rows that were made so far and what
for. -/
theorem stampRows_total (fill : BindingContext → ObjectId → Walk → Option Walk)
    (hread : walk.graph.component? id = some c) (hrows : c.rows.isSome = true)
    (hstart : I [] (walk.graph.set id { c with rows := some [] }))
    (hfill : ∀ blank, c.blankRow? walk.graph = some blank → ∀ record ∈ c.rowRecords walk.graph,
      ∀ made (current : Walk), I made current.graph →
        ∃ filled, fill record (current.graph.alloc blank).1
            { current with graph := (current.graph.alloc blank).2 } = some filled ∧
          I (made ++ [(record, (current.graph.alloc blank).1)]) filled.graph) :
    ∃ rows, ∃ done : Walk, stampRows fill id walk = some (done.setRows id rows) ∧
      rows.length = (c.rowRecords walk.graph).length ∧
      I ((c.rowRecords walk.graph).zip rows) done.graph := by
  obtain ⟨blank, warnings, hblank, hstamp⟩ := stampRows_eq hread hrows
  have hloop : ∀ record ∈ c.rowRecords walk.graph, ∀ made (current : Walk), I made current.graph →
      ∃ filled, fill record (current.graph.alloc blank).1
          { current with graph := (current.graph.alloc blank).2 } = some filled ∧
        I (made ++ [(record, (current.graph.alloc blank).1)]) filled.graph := by
    intro record hrecord
    -- there are records only if there is a blank row
    cases hown : c.blankRow? walk.graph with
    | none => rw [Component.rowRecords, hown] at hrecord; cases hrecord
    | some own =>
      rw [hblank own hown]
      exact hfill own hown record hrecord
  obtain ⟨rows, done, hrecords, hlength, hdone⟩ := stampRecords_total hloop
    ⟨walk.graph.set id { c with rows := some [] }, warnings⟩ hstart
  refine ⟨rows, done, ?_, hlength, hdone⟩
  rw [hstamp, hrecords]
  rfl

end Loop

end Stamping

end MarkupForms
