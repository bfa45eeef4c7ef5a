import MarkupForms.Proofs.Hydration.TreeShape
import MarkupForms.Proofs.Objects.ContextSet
import MarkupForms.Proofs.Objects.RowWalk

/-!
# Rows that are isolated from each other

Rows are copies of one template, but only the template itself is copied: what is nested in it
belongs to every row. A row that leads to no object which some other row or the template leads to,
too, or only to such as have nothing to take, is isolated (`propagate_rowsIsolated`): stamping
leaves the template and all below it alone, and a row shows the values of its own record. Otherwise
the last record wins, in all rows and in the template (`not_isolated_rowsText`).
-/

namespace MarkupForms

/-! ## What an object shows -/

/-- Each binding that draws a fitting value from the context has put it into its property. -/
def Component.Shows (c : Component) (g : Graph) (context : BindingContext) : Prop :=
  ∀ store, c.store = some store → store.bindings.keys.Nodup →
    ∀ name bound value, (name, bound) ∈ store.bindings.toList →
      (bound.evaluate g [] context).1 = some value → c.get? name = some value

section Drawing

variable {g other : Graph} {context : BindingContext}

/-- **After its turn an object shows the context.** -/
theorem Component.shows_filled (c : Component) (g : Graph) (context : BindingContext) :
    (c.filled g context).Shows g context := by
  intro store hstore hkeys name bound value hmem hvalue
  rw [filled, given_eq] at hstore ⊢
  obtain ⟨before, hbefore, rfl⟩ := Option.map_eq_some_iff.1 hstore
  -- the bindings are those from before the turn
  have hdrawn := mem_drawValues.2 ⟨bound, hmem, hvalue⟩
  have hnodup : ((drawValues g [] context before.bindings.toList).1.map Prod.fst).Nodup := by
    rw [keys_drawValues]
    exact hkeys.sublist (List.filter_sublist.map _)
  have hget : ((before.applyContext g [] context).1).value? name = some value :=
    OrderedMap.get?_insertAll_of_mem hnodup hdrawn
  rw [ObjectState.get?, hbefore, Option.map_some, Option.bind_some, hget]

theorem Component.Shows.congr {c : Component} (h : c.Shows g context)
    (hconverts : other.ConvertsAs g c.converters) :
    c.Shows other context := by
  intro store hstore hkeys name bound value hmem hvalue
  refine h store hstore hkeys name bound value hmem ?_
  rw [← hvalue]
  symm
  apply BoundProperty.evaluate_congr
  intro x hx
  apply hconverts x
  rw [ObjectState.converters, hstore]
  exact List.mem_filterMap.2 ⟨bound, List.mem_map.2 ⟨_, hmem, rfl⟩, Option.mem_toList.1 hx⟩

end Drawing

namespace Graph

variable {g w : Graph} {id : ObjectId} {c : Component}

/-! ## Rows and what they lead to -/

/-- What a row leads to once it is filled from the record. -/
def rowBelow (g : Graph) (c : Component) (record : BindingContext) : Set ObjectId :=
  {x | ∃ blank, c.blankRow? g = some blank ∧ ∃ a ∈ (blank.given g record).nested,
    x ∈ g.below record a}

/-- Rows can be filled: they lead to objects that are there and in which nothing is nested in a
circle, and neither these nor the rows stamp rows themselves. -/
structure RowsWalkable (g : Graph) (c : Component) : Prop where
  blank (record : BindingContext) (row : Component) : record ∈ c.rowRecords g →
    c.blankRow? g = some row →
    (row.given g record).Stampless ∧ ∀ y ∈ row.converters, y.index < g.size
  object (record : BindingContext) (x : ObjectId) : record ∈ c.rowRecords g →
    x ∈ g.rowBelow c record →
    ∃ own, g.component? x = some own ∧ (own.given g record).Stampless ∧
    ∀ y ∈ own.converters, y.index < g.size
  acyclic (record : BindingContext) (x : ObjectId) : record ∈ c.rowRecords g →
    x ∈ g.rowBelow c record → ¬ Relation.TransGen (g.Leads record) x x

/-- Nothing that the rows need is busy while they are stamped: a row can be filled under any new
number, and so can each object that a row leads to. -/
structure RowsUnblocked (g : Graph) (c : Component) (busy : List ObjectId) : Prop where
  row (blank : Component) (row : ObjectId) : c.blankRow? g = some blank → g.size ≤ row.index →
    blank.Unblocked row busy
  below (record : BindingContext) : record ∈ c.rowRecords g → g.Unblocked (g.rowBelow c record) busy

/-- **Nothing that takes values is shared**: an object that two rows lead to takes the same from
both records, and one that is also below the template takes nothing. The list itself is below no
row. -/
structure RowsApart (g : Graph) (id : ObjectId) (c : Component) : Prop where
  list (record : BindingContext) : record ∈ c.rowRecords g → id ∉ g.rowBelow c record
  rows (record other : BindingContext) (x : ObjectId) (own : Component) : record ∈ c.rowRecords g →
    other ∈ c.rowRecords g → x ∈ g.rowBelow c record → x ∈ g.rowBelow c other →
    g.component? x = some own →
      own.filled g record = own.filled g other
  template (record : BindingContext) (t x : ObjectId) (own : Component) : record ∈ c.rowRecords g →
    c.itemTemplate? = some t → x ∈ g.reach t → x ∈ g.rowBelow c record → g.component? x = some own →
      own.filled g record = own

/-- What stamping comes to if rows are isolated. -/
structure RowsIsolated (g : Graph) (id : ObjectId) (c : Component) (rows : List ObjectId)
    (w : Graph) : Prop where
  /-- Only the rows of the list change. -/
  list : w.component? id = some { c with rows := some rows }
  /-- The rows are different new objects, -/
  fresh : rows.Nodup ∧ ∀ row ∈ rows, g.size ≤ row.index ∧ row.index < w.size
  /-- one for each record, and each depends on its own record only. -/
  filled : rows.length = (c.rowRecords g).length ∧ c.RowsFrom g g w rows
  /-- The row and all that is nested in it show the record. -/
  shows (entry : BindingContext × ObjectId) (x : ObjectId) (own : Component) :
    entry ∈ (c.rowRecords g).zip rows → x ∈ w.reach entry.2 → w.component? x = some own →
    own.Shows w entry.1
  /-- The template and all that is nested in it are as they were, -/
  template (t x : ObjectId) (own : Component) : c.itemTemplate? = some t → x ∈ g.reach t → x ≠ id →
    g.component? x = some own → w.component? x = some own
  /-- and so is everything that no row leads to. -/
  others (x : ObjectId) (own : Component) :
    (∀ record ∈ c.rowRecords g, x ∉ g.rowBelow c record) → x ≠ id →
    g.component? x = some own → w.component? x = some own

theorem RowsWalkable.walkable (h : g.RowsWalkable c) {record : BindingContext}
    (hrecord : record ∈ c.rowRecords g) :
    g.Walkable record (g.rowBelow c record) where
  object x hx := h.object record x hrecord hx
  closed a b := by
    rintro ⟨row, hrow, first, hfirst, ha⟩ hleads
    exact ⟨row, hrow, first, hfirst, ha.tail hleads⟩
  acyclic x hx := h.acyclic record x hrecord hx

/-! ## One row -/

/-- **One row is made and filled**: it and what it leads to have their turn, and nothing else
changes. -/
theorem RowsWalkable.fillRow (h : g.RowsWalkable c) {record : BindingContext}
    (hrecord : record ∈ c.rowRecords g) {blank : Component} (hblank : c.blankRow? g = some blank)
    (current : Walk) (hsize : g.size ≤ current.graph.size)
    (hready : g.Ready record (g.rowBelow c record) current.graph) {bound : Nat}
    (hbound : g.size + 2 ≤ bound) {busy : List ObjectId} (hbusy : g.RowsUnblocked c busy) :
    ∃ filled, propagate bound busy record (current.graph.alloc blank).1
        { current with graph := (current.graph.alloc blank).2 } = some filled ∧
      filled.graph.component? (current.graph.alloc blank).1 = some (blank.filled g record) ∧
      g.TookTurns record (g.rowBelow c record)
        ((current.graph.alloc blank).2.set (current.graph.alloc blank).1 (blank.filled g record))
          filled.graph := by
  obtain ⟨smaller, rfl⟩ : ∃ smaller, bound = smaller + 1 := ⟨bound - 1, by omega⟩
  have hwalkable := h.walkable hrecord
  obtain ⟨hstampless, hconverters⟩ := h.blank record blank hrecord hblank
  have hread := current.graph.component?_alloc_new blank
  have hmade : g.KeepsConverters (current.graph.alloc blank).2 := hready.converts.alloc hsize blank
  have hgiven : blank.given (current.graph.alloc blank).2 record = blank.given g record :=
    Component.given_congr (hmade.convertsAs hconverters)
  have hunblocked : blank.Unblocked (current.graph.alloc blank).1 busy :=
    hbusy.row blank _ hblank hsize
  have hturn := propagate_of_stampless { current with graph := (current.graph.alloc blank).2 }
    record hread hunblocked (hgiven ▸ hstampless) smaller
  dsimp only at hturn
  rw [hgiven, Component.filled_congr (hmade.convertsAs hconverters)] at hturn
  obtain ⟨warnings, hturn⟩ := hturn
  -- the row is new, so what it leads to is as ready as before
  have hold : ∀ x own, g.component? x = some own →
      ((current.graph.alloc blank).2.set (current.graph.alloc blank).1
        (blank.filled g record)).component? x = current.graph.component? x := by
    intro x own hown
    have hlt : x.index < current.graph.size := (index_lt_size hown).trans_le hsize
    rw [component?_set_of_ne, component?_alloc_of_lt _ _ hlt]
    rintro rfl
    exact Nat.lt_irrefl _ hlt
  have hnext : g.Ready record (g.rowBelow c record)
      ((current.graph.alloc blank).2.set (current.graph.alloc blank).1
        (blank.filled g record)) := by
    refine ⟨hmade.set hread (blank.converter_filled g record), fun x own hx hown => ?_⟩
    rw [hold x own hown]
    exact hready.object x own hx hown
  have hchildren : ∀ a ∈ (blank.given g record).nested,
      a ∈ g.rowBelow c record ∧ g.leadHeight record a < smaller := by
    intro a ha
    have hheight := g.leadHeight_le_size record a
    exact ⟨⟨blank, hblank, a, ha, .refl⟩, by omega⟩
  obtain ⟨done, hdone, hturns⟩ :=
    (hwalkable.turns (hbusy.below record hrecord) smaller).children hwalkable hchildren
    ⟨_, warnings⟩ hnext
  have hbelow : {x | ∃ a ∈ (blank.given g record).nested, x ∈ g.below record a} =
      g.rowBelow c record := by
    ext x
    constructor
    · exact fun hx => ⟨blank, hblank, hx⟩
    · rintro ⟨row, hrow, hx⟩
      rw [hblank] at hrow
      cases hrow
      exact hx
  rw [hbelow] at hturns
  refine ⟨done, hturn.trans hdone, (hturns.kept _ ?_).trans (component?_set_self hread _), hturns⟩
  intro hnew
  obtain ⟨own, hown, -⟩ := hwalkable.object _ hnew
  exact Nat.lt_irrefl _ ((index_lt_size hown).trans_le hsize)

/-! ## Row after row -/

/-- While rows are stamped: the rows made so far are filled, and what they lead to has had its
turn. -/
structure Stamping (g : Graph) (id : ObjectId) (c : Component)
    (made : List (BindingContext × ObjectId)) (w : Graph) : Prop where
  size : g.size ≤ w.size
  converts : g.KeepsConverters w
  list : w.component? id = some { c with rows := some [] }
  records (entry : BindingContext × ObjectId) : entry ∈ made → entry.1 ∈ c.rowRecords g
  fresh : (made.map Prod.snd).Nodup
  row (entry : BindingContext × ObjectId) : entry ∈ made → g.size ≤ entry.2.index ∧
    entry.2.index < w.size ∧ w.component? entry.2 = (c.blankRow? g).map (·.filled g entry.1)
  taken (entry : BindingContext × ObjectId) (x : ObjectId) (own : Component) : entry ∈ made →
    x ∈ g.rowBelow c entry.1 → g.component? x = some own →
    w.component? x = some (own.filled g entry.1)
  kept (x : ObjectId) : x.index < g.size → x ≠ id → (∀ entry ∈ made, x ∉ g.rowBelow c entry.1) →
    w.component? x = g.component? x

namespace Stamping

variable {made : List (BindingContext × ObjectId)}

theorem start (hread : g.component? id = some c) :
    g.Stamping id c [] (g.set id { c with rows := some [] }) where
  size := (size_set _ _ _).ge
  converts := KeepsConverters.set (fun _ _ => rfl) hread rfl
  list := component?_set_self hread _
  records entry hmem := by cases hmem
  fresh := List.nodup_nil
  row entry hmem := by cases hmem
  taken entry x own hmem := by cases hmem
  kept x _ hne _ := component?_set_of_ne g (Ne.symm hne) _

/-- What the next row leads to is ready: what rows share takes the same from each record. -/
theorem ready (h : g.Stamping id c made w) (hapart : g.RowsApart id c) {record : BindingContext}
    (hrecord : record ∈ c.rowRecords g) : g.Ready record (g.rowBelow c record) w where
  converts := h.converts
  object x own hx hown := by
    by_cases hbefore : ∃ entry ∈ made, x ∈ g.rowBelow c entry.1
    · obtain ⟨entry, hmem, hold⟩ := hbefore
      refine Or.inr ?_
      rw [h.taken entry x own hmem hold hown]
      exact congrArg some (hapart.rows entry.1 record x own
        (h.records entry hmem) hrecord hold hx hown)
    · refine Or.inl ?_
      have hne : x ≠ id := by
        rintro rfl
        exact hapart.list record hrecord hx
      rw [h.kept x (index_lt_size hown) hne fun entry hmem hold => hbefore ⟨entry, hmem, hold⟩]
      exact hown

/-- **One more row.** -/
theorem fill (h : g.Stamping id c made w) (hread : g.component? id = some c)
    (hwalkable : g.RowsWalkable c) (hapart : g.RowsApart id c) {record : BindingContext}
    (hrecord : record ∈ c.rowRecords g) {blank : Component} (hblank : c.blankRow? g = some blank)
    {filled : Graph} (hrow : filled.component? (w.alloc blank).1 = some (blank.filled g record))
    (hturns : g.TookTurns record (g.rowBelow c record)
      ((w.alloc blank).2.set (w.alloc blank).1 (blank.filled g record)) filled) :
    g.Stamping id c (made ++ [(record, (w.alloc blank).1)]) filled := by
  have hsize : filled.size = w.size + 1 := by rw [hturns.size, size_set, size_alloc]
  have hknown : ∀ x ∈ g.rowBelow c record, x.index < g.size := by
    intro x hx
    obtain ⟨own, hown, -⟩ := hwalkable.object record x hrecord hx
    exact index_lt_size hown
  -- everything else that there was before is as it was
  have hold : ∀ x : ObjectId, x.index < w.size → x ∉ g.rowBelow c record →
      filled.component? x = w.component? x := by
    intro x hlt hx
    rw [hturns.kept x hx, component?_set_of_ne, component?_alloc_of_lt _ _ hlt]
    rintro rfl
    exact Nat.lt_irrefl _ hlt
  refine ⟨hsize ▸ Nat.le_succ_of_le h.size, fun x hx => ?_, ?_, fun entry hmem => ?_, ?_,
    fun entry hmem => ?_,
    fun entry x own hmem hx hown => ?_, fun x hlt hne hx => ?_⟩
  · by_cases hbelow : x ∈ g.rowBelow c record
    · obtain ⟨own, hown, -⟩ := hwalkable.object record x hrecord hbelow
      rw [hturns.taken x own hbelow hown, hown]
      exact own.converter_filled g record
    · rw [hold x (hx.trans_le h.size) hbelow]
      exact h.converts x hx
  · rw [hold id ((index_lt_size hread).trans_le h.size) (hapart.list record hrecord)]
    exact h.list
  · rcases List.mem_append.1 hmem with hmem | hlast
    · exact h.records entry hmem
    · rw [List.mem_singleton.1 hlast]
      exact hrecord
  · rw [List.map_append, List.map_singleton, List.nodup_append]
    refine ⟨h.fresh, List.nodup_singleton _, fun row hmem other hlast => ?_⟩
    obtain ⟨entry, hentry, rfl⟩ := List.mem_map.1 hmem
    rw [List.mem_singleton.1 hlast]
    intro heq
    exact Nat.lt_irrefl _ (congrArg ObjectId.index heq ▸ (h.row entry hentry).2.1)
  · rcases List.mem_append.1 hmem with hmem | hlast
    · obtain ⟨hge, hlt, hfilled⟩ := h.row entry hmem
      refine ⟨hge, hsize ▸ Nat.lt_succ_of_lt hlt, ?_⟩
      rw [hold entry.2 hlt fun hx => Nat.not_lt.2 hge (hknown _ hx)]
      exact hfilled
    · rw [List.mem_singleton.1 hlast]
      refine ⟨h.size, hsize ▸ Nat.lt_succ_self _, ?_⟩
      rw [hrow, hblank]
      rfl
  · by_cases hbelow : x ∈ g.rowBelow c record
    · rw [hturns.taken x own hbelow hown]
      rcases List.mem_append.1 hmem with hmem | hlast
      · exact congrArg some (hapart.rows record entry.1 x own hrecord
          (h.records entry hmem) hbelow hx hown)
      · rw [List.mem_singleton.1 hlast]
    · rw [hold x ((index_lt_size hown).trans_le h.size) hbelow]
      rcases List.mem_append.1 hmem with hmem | hlast
      · exact h.taken entry x own hmem hx hown
      · rw [List.mem_singleton.1 hlast] at hx
        exact absurd hx hbelow
  · have hlast : x ∉ g.rowBelow c record :=
      hx (record, (w.alloc blank).1) (List.mem_append_right _ (List.mem_singleton_self _))
    rw [hold x (hlt.trans_le h.size) hlast]
    exact h.kept x hlt hne fun entry hmem => hx entry (List.mem_append_left _ hmem)

/-- Afterwards a row leads nowhere else. -/
theorem reach_row (h : g.Stamping id c made w) (hwalkable : g.RowsWalkable c)
    {record : BindingContext} {row : ObjectId} (hmem : (record, row) ∈ made) {later : Graph}
    (hlater : ∀ x, x ≠ id → later.component? x = w.component? x) (hapart : g.RowsApart id c)
    (hrow : row ≠ id) {x : ObjectId} (hx : x ∈ later.reach row) :
    x = row ∨ x ∈ g.rowBelow c record := by
  have hrecord := h.records _ hmem
  induction hx with
  | refl => exact Or.inl rfl
  | @tail a b _ hab ih =>
    refine Or.inr ?_
    rw [Nests, Graph.nested] at hab
    rcases ih with rfl | hbelow
    · rw [hlater a hrow, (h.row _ hmem).2.2] at hab
      cases hblank : c.blankRow? g with
      | none => rw [hblank] at hab; cases hab
      | some blank =>
        rw [hblank] at hab
        exact ⟨blank, hblank, b, hab, .refl⟩
    · have hne : a ≠ id := by
        rintro rfl
        exact hapart.list record hrecord hbelow
      obtain ⟨own, hown, -⟩ := hwalkable.object record a hrecord hbelow
      rw [hlater a hne, h.taken _ a own hmem hbelow hown] at hab
      exact (hwalkable.walkable hrecord).closed a b hbelow ⟨own, hown, hab⟩

/-- **All rows are stamped.** -/
theorem isolated {rows : List ObjectId} {done : Walk}
    (h : g.Stamping id c ((c.rowRecords g).zip rows) done.graph)
    (hlength : rows.length = (c.rowRecords g).length) (hread : g.component? id = some c)
    (hwalkable : g.RowsWalkable c) (hapart : g.RowsApart id c) :
    g.RowsIsolated id c rows (done.setRows id rows).graph := by
  rw [Walk.graph_setRows h.list]
  have hlater : ∀ x, x ≠ id → (done.graph.set id { c with rows := some rows }).component? x =
      done.graph.component? x := fun x hne => component?_set_of_ne _ (Ne.symm hne) _
  have hconverts : g.KeepsConverters (done.graph.set id { c with rows := some rows }) :=
    h.converts.set h.list rfl
  have hentry : ∀ entry ∈ (c.rowRecords g).zip rows, entry.2 ≠ id := by
    rintro entry hmem rfl
    exact Nat.lt_irrefl _ ((index_lt_size hread).trans_le (h.row entry hmem).1)
  have hsnd := List.map_snd_zip (Nat.le_of_eq hlength)
  have hfst := List.map_fst_zip (Nat.le_of_eq hlength.symm)
  refine ⟨component?_set_self h.list _, ⟨hsnd ▸ h.fresh, fun row hmem => ?_⟩, ⟨hlength, ?_⟩,
    fun entry x own hmem hx hown => ?_, fun t x own ht hx hne hown =>
      ?_, fun x own hx hne hown => ?_⟩
  · rw [← hsnd] at hmem
    obtain ⟨entry, hentry, rfl⟩ := List.mem_map.1 hmem
    rw [size_set]
    exact ⟨(h.row entry hentry).1, (h.row entry hentry).2.1⟩
  · refine .of_zip hlength fun entry hmem => ?_
    rw [hlater entry.2 (hentry entry hmem)]
    exact (h.row entry hmem).2.2
  · have hrecord := h.records entry hmem
    rcases h.reach_row hwalkable hmem hlater hapart (hentry entry hmem) hx with rfl | hbelow
    · rw [hlater entry.2 (hentry entry hmem), (h.row entry hmem).2.2] at hown
      obtain ⟨blank, hblank, rfl⟩ := Option.map_eq_some_iff.1 hown
      refine (blank.shows_filled g entry.1).congr (hconverts.convertsAs ?_)
      rw [Component.converters_filled]
      exact (hwalkable.blank entry.1 blank hrecord hblank).2
    · have hne : x ≠ id := by
        rintro rfl
        exact hapart.list entry.1 hrecord hbelow
      obtain ⟨before, hbefore, -, hknown⟩ := hwalkable.object entry.1 x hrecord hbelow
      rw [hlater x hne, h.taken entry x before hmem hbelow hbefore] at hown
      cases hown
      refine (before.shows_filled g entry.1).congr (hconverts.convertsAs ?_)
      rw [Component.converters_filled]
      exact hknown
  · rw [hlater x hne]
    by_cases hbelow : ∃ entry ∈ (c.rowRecords g).zip rows, x ∈ g.rowBelow c entry.1
    · -- what the template shares with a row takes nothing
      obtain ⟨entry, hmem, hbelow⟩ := hbelow
      rw [h.taken entry x own hmem hbelow hown]
      exact congrArg some (hapart.template entry.1 t x own (h.records entry hmem) ht hx hbelow hown)
    · rw [h.kept x (index_lt_size hown) hne fun entry hmem hbelow' => hbelow ⟨entry, hmem, hbelow'⟩]
      exact hown
  · rw [hlater x hne, h.kept x (index_lt_size hown) hne fun entry hmem =>
      hx entry.1 (h.records entry hmem)]
    exact hown

end Stamping

/-- **Stamping isolates rows** that share nothing which takes values. -/
theorem stampRows_isolated (walk : Walk) (hread : walk.graph.component? id = some c)
    (hrows : c.rows.isSome = true) (hwalkable : walk.graph.RowsWalkable c)
    (hapart : walk.graph.RowsApart id c) {bound : Nat} (hbound : walk.graph.size + 2 ≤ bound)
    {busy : List ObjectId} (hbusy : walk.graph.RowsUnblocked c busy) :
    ∃ rows stamped, stampRows (propagate bound busy) id walk = some stamped ∧
      walk.graph.RowsIsolated id c rows stamped.graph := by
  obtain ⟨rows, done, hstamp, hlength, hdone⟩ := stampRows_total (I := walk.graph.Stamping id c)
    (propagate bound busy) hread hrows (.start hread)
    fun blank hblank record hrecord made current hmade => by
      have hready := hmade.ready hapart hrecord
      obtain ⟨filled, hfilled, hrow, hturns⟩ :=
        hwalkable.fillRow hrecord hblank current hmade.size hready hbound hbusy
      exact ⟨filled, hfilled, hmade.fill hread hwalkable hapart hrecord hblank hrow hturns⟩
  exact ⟨rows, done.setRows id rows, hstamp, hdone.isolated hlength hread hwalkable hapart⟩

/-- Once the rows are stamped, the walk goes on to what is nested in the list view. -/
theorem propagate_of_stampRows (walk : Walk) (context : BindingContext)
    (hread : walk.graph.component? id = some c) {bound : Nat} {busy rows : List ObjectId}
    (hunblocked : c.Unblocked id busy) {stamped : Walk}
    (hstamp : stampRows (propagate bound (id :: busy)) id
      ⟨walk.graph.set id (c.given walk.graph context),
      walk.warnings ++ (c.applyContext walk.graph (id :: busy) context).2⟩ = some stamped)
    (hlist : stamped.graph.component? id =
      some { c.given walk.graph context with rows := some rows }) :
    propagate (bound + 1) busy context id walk = (c.given walk.graph context).nested.foldlM
      (fun walk child => propagate bound busy context child walk) stamped := by
  have hnested : stamped.graph.nested id = (c.given walk.graph context).nested := by
    rw [Graph.nested, hlist]
    rfl
  rw [propagate, hread]
  dsimp only
  rw [hunblocked.updateObject_eq, hstamp, Option.bind_some, hnested]

/-- **Rows are isolated** from each other and from their template wherever a change of context comes
to a list: the list takes its values, stamps rows that show their own records and leaves its
template alone, and then the change goes on to what is nested in the list. The only condition,
beside that the rows can be filled and that neither the list nor its rows need an object that is
being updated, is that rows share nothing that takes values. -/
theorem propagate_rowsIsolated (walk : Walk) (context : BindingContext)
    (hread : walk.graph.component? id = some c) (hrows : c.rows.isSome = true) {bound : Nat}
    (hbound : walk.graph.size + 2 ≤ bound) {busy : List ObjectId}
    (hunblocked : c.Unblocked id busy) :
    let own := c.given walk.graph context
    let u := walk.graph.set id own
    u.RowsWalkable own → u.RowsUnblocked own (id :: busy) → u.RowsApart id own →
      ∃ rows stamped, u.RowsIsolated id own rows stamped.graph ∧
        propagate (bound + 1) busy context id walk =
          own.nested.foldlM (fun walk child => propagate bound busy context child walk)
            stamped := by
  intro own u hwalkable hbusy hapart
  have hstamps : own.rows.isSome = true := by
    show (c.given walk.graph context).rows.isSome = true
    rw [Component.given_eq]
    exact hrows
  have hlarge : u.size + 2 ≤ bound := by
    rw [size_set]
    exact hbound
  obtain ⟨rows, stamped, hstamp, hisolated⟩ := stampRows_isolated
    ⟨u, walk.warnings ++ (c.applyContext walk.graph (id :: busy) context).2⟩
    (component?_set_self hread own) hstamps hwalkable hapart hlarge hbusy
  exact ⟨rows, stamped, hisolated,
    propagate_of_stampRows walk context hread hunblocked hstamp hisolated.list⟩

/-- A page around an object, with its title bound. -/
def titledPage (content : ObjectId) : Component :=
  let page :=
    binding { Forms.newContentPage with type := Forms.contentPage } ⟨"Title", "Page", .text⟩ "Name"
  { page with
    store := page.store.map (·.setValue ⟨"Content", "ContentPage", .object⟩ (.object content)) }

/-- A list whose rows are pages with titles of their own around one label. -/
def titledPages : Graph :=
  ⟨#[binding (templateList ⟨1⟩) ⟨"ItemsSource", "ListView", .list⟩ "Items", titledPage ⟨2⟩,
    { Forms.newLabel with type := Forms.label }]⟩

/-- The list of `titledPages` with the records of `rowsContext`. -/
def titledList : Component :=
  ((titledPages.component? ⟨0⟩).map (·.given titledPages Hydration.rowsContext)).getD nameCell

/-- Nothing is nested in the label of `titledPages`. -/
theorem not_leads_titledLabel (record : BindingContext) (x : ObjectId) :
    ¬ (titledPages.set ⟨0⟩ titledList).Leads record ⟨2⟩ x := by
  rintro ⟨own, hown, hmem⟩
  cases hown
  cases hmem

/-- The rows of `titledPages` lead to the label and nothing else. -/
theorem rowBelow_titledPages {record : BindingContext} {x : ObjectId}
    (hrecord : record ∈ titledList.rowRecords (titledPages.set ⟨0⟩ titledList))
    (hx : x ∈ (titledPages.set ⟨0⟩ titledList).rowBelow titledList record) : x = ⟨2⟩ := by
  obtain ⟨row, hrow, a, ha, hx⟩ := hx
  cases hrow
  have hlabel : a = ⟨2⟩ := by
    have hrecords : record ∈ ([.ofList [("Name", .text "Ann")], .ofList [("Name", .text "Ben")]] :
        List BindingContext) :=
      hrecord
    rcases List.mem_cons.1 hrecords with rfl | hlast
    · exact List.mem_singleton.1 ha
    · rw [List.mem_singleton.1 hlast] at ha
      exact List.mem_singleton.1 ha
  rcases Relation.ReflTransGen.cases_head hx with rfl | ⟨b, hleads, -⟩
  · exact hlabel
  · rw [hlabel] at hleads
    exact absurd hleads (not_leads_titledLabel record b)

theorem rowsWalkable_titledPages : (titledPages.set ⟨0⟩ titledList).RowsWalkable titledList where
  blank record row hrecord hrow := by
    cases hrow
    refine ⟨fun hstamps => ?_, fun y hy => ?_⟩
    · cases hstamps
    · cases hy
  object record x hrecord hx := by
    rw [rowBelow_titledPages hrecord hx]
    refine ⟨_, rfl, fun hstamps => ?_, fun y hy => ?_⟩
    · cases hstamps
    · cases hy
  acyclic record x hrecord hx := by
    rw [rowBelow_titledPages hrecord hx]
    intro hcircle
    obtain ⟨b, hleads, -⟩ := Relation.TransGen.head'_iff.1 hcircle
    exact not_leads_titledLabel record b hleads

theorem rowsApart_titledPages : (titledPages.set ⟨0⟩ titledList).RowsApart ⟨0⟩ titledList where
  list record hrecord hx := by
    cases rowBelow_titledPages hrecord hx
  rows record other x own hrecord hother hx _ hown := by
    rw [rowBelow_titledPages hrecord hx] at hown
    cases hown
    rfl
  template record t x own hrecord _ _ hx hown := by
    rw [rowBelow_titledPages hrecord hx] at hown
    cases hown
    rfl

/-- Neither the pages nor the label have converters, or templates. -/
theorem rowsUnblocked_titledPages : (titledPages.set ⟨0⟩ titledList).RowsUnblocked titledList
    [⟨0⟩] where
  row blank row hrow hnew := by
    cases hrow
    refine .of_none (fun hmem => ?_) rfl rfl
    rw [List.mem_singleton.1 hmem] at hnew
    exact absurd hnew (by decide)
  below record hrecord x hx own hown := by
    rw [rowBelow_titledPages hrecord hx] at hown ⊢
    cases hown
    exact .of_none (by decide) rfl rfl

/-- Each page has the title of its own record, and the label is as it was. -/
theorem rowsIsolated_titledPages :
    let u := titledPages.set ⟨0⟩ titledList
    u.RowsWalkable titledList ∧ u.RowsUnblocked titledList [⟨0⟩] ∧ u.RowsApart ⟨0⟩ titledList ∧
      ∃ rows stamped, u.RowsIsolated ⟨0⟩ titledList rows stamped.graph ∧
        propagate (walkBound titledPages) [] Hydration.rowsContext ⟨0⟩ ⟨titledPages, []⟩ =
          some stamped ∧
        rows.map (fun row => (stamped.graph.get? row "Title").bind Value.asText?) =
          [some "Ann", some "Ben"] := by
  intro u
  have hread : titledPages.component? ⟨0⟩ =
      some (binding (templateList ⟨1⟩) ⟨"ItemsSource", "ListView", .list⟩ "Items") := rfl
  have hbound : titledPages.size + 2 ≤ 24 := by decide
  have hunblocked :
      (binding (templateList ⟨1⟩) ⟨"ItemsSource", "ListView", .list⟩ "Items").Unblocked ⟨0⟩ [] := by
    refine ⟨List.not_mem_nil, fun x hx => ?_, fun t _ ht => ?_⟩
    · cases hx
    · cases ht
      decide
  obtain ⟨rows, stamped, hisolated, hwalk⟩ :=
    propagate_rowsIsolated ⟨titledPages, []⟩ Hydration.rowsContext hread
    rfl hbound hunblocked rowsWalkable_titledPages rowsUnblocked_titledPages rowsApart_titledPages
  refine ⟨rowsWalkable_titledPages, rowsUnblocked_titledPages, rowsApart_titledPages, rows, stamped,
    hisolated, hwalk, ?_⟩
  have hrows :=
    congrArg (List.map fun row : Option Component => (row.bind (·.get? "Title")).bind Value.asText?)
    hisolated.filled.2
  rw [List.map_map] at hrows
  exact hrows

end Graph

set_option maxRecDepth 4000 in
/-- **A label inside the template is shared**, and its text is bound: in `rowsText` the rows for Ann
and Ben lead to the one label that the template leads to. Before there was no text in it; afterwards
it shows Ben, in both rows and in the template. -/
theorem Hydration.not_isolated_rowsText :
    let after := (LoadRequest.load ⟨.empty, Forms.catalog, none, none⟩ rowsText).2
    let w := (after.setContext ⟨0⟩ rowsContext).1
    (LoadRequest.load ⟨.empty, Forms.catalog, none, none⟩ rowsText).1 = .ok ⟨0⟩ ∧
      (after.component? ⟨0⟩).bind (·.itemTemplate?) = some ⟨1⟩ ∧ ⟨2⟩ ∈ after.reach ⟨1⟩ ∧
      after.get? ⟨2⟩ "Text" = none ∧
      (w.component? ⟨0⟩).bind (·.rows) = some [⟨3⟩, ⟨4⟩] ∧ ⟨2⟩ ∈ w.reach ⟨3⟩ ∧ ⟨2⟩ ∈ w.reach ⟨4⟩ ∧
      (w.get? ⟨2⟩ "Text").bind Value.asText? = some "Ben" := by
  intro after w
  have hload : LoadRequest.load ⟨.empty, Forms.catalog, none, none⟩ rowsText = _ :=
    LoadRequest.load_eq_ok rowsText_feed rowsText_unmarked ⟨0⟩ rfl
  have hstep : ∀ {g : Graph} {a b : ObjectId}, b ∈ g.nested a → b ∈ g.reach a := fun h => .single h
  have hafter : after.nested ⟨1⟩ = [⟨2⟩] := by
    unfold after
    rw [hload]
    rfl
  have hrows : w.nested ⟨3⟩ = [⟨2⟩] ∧ w.nested ⟨4⟩ = [⟨2⟩] := by
    unfold w after
    rw [hload]
    exact ⟨rfl, rfl⟩
  refine ⟨?_, ?_, hstep (hafter ▸ List.mem_singleton_self _), ?_, ?_,
    hstep (hrows.1 ▸ List.mem_singleton_self _), hstep (hrows.2 ▸ List.mem_singleton_self _), ?_⟩
  · rw [hload]
  · unfold after
    rw [hload]
    rfl
  · unfold after
    rw [hload]
    rfl
  · unfold w after
    rw [hload]
    rfl
  · unfold w after
    rw [hload]
    rfl

end MarkupForms
