import Mathlib.Data.Set.Insert
import MarkupForms.Proofs.Objects.Calm

/-!
# Objects that have taken their values

Each object that a walk comes to has one turn, or several: it takes its values from the context and
replaces its rows. After its first turn it holds the values that it would have taken at the start,
whatever happened before in the walk, and later turns can only replace its rows again.
-/

namespace MarkupForms

/-- The rows are what the object's template in `u` makes of its records. -/
def Component.RowsFrom (c : Component) (g u later : Graph) (rows : List ObjectId) : Prop :=
  rows.map later.component? = (c.rowRecords u).map fun record =>
    (c.blankRow? u).map (·.filled g record)

namespace Component

variable {c : Component} {g u : Graph}

theorem blankRow?_congr (h : ∀ id, c.itemTemplate? = some id → u.component? id = g.component? id) :
    c.blankRow? u = c.blankRow? g := by
  rw [blankRow?, blankRow?]
  cases htemplate : c.itemTemplate? with
  | none => rfl
  | some id => rw [Option.bind_some, Option.bind_some, h id htemplate]

theorem rowRecords_congr (h : c.blankRow? u = c.blankRow? g) : c.rowRecords u = c.rowRecords g := by
  rw [rowRecords, rowRecords, h]

namespace RowsFrom

variable {w later : Graph} {rows : List ObjectId}

theorem of_zip (hlength : rows.length = (c.rowRecords u).length)
    (h : ∀ entry ∈ (c.rowRecords u).zip rows,
      later.component? entry.2 = (c.blankRow? u).map (·.filled g entry.1)) :
      c.RowsFrom g u later rows := by
  have hrows := congrArg (List.map later.component?) (List.map_snd_zip (Nat.le_of_eq hlength))
  have hrecords := congrArg (List.map fun record => (c.blankRow? u).map (·.filled g record))
    (List.map_fst_zip (Nat.le_of_eq hlength.symm))
  rw [List.map_map] at hrows hrecords
  exact hrows.symm.trans ((List.map_congr_left h).trans hrecords)

/-- The same template makes the same rows. -/
theorem template (h : c.RowsFrom g u w rows) {other : Graph}
    (htemplate : ∀ id, c.itemTemplate? = some id → u.component? id = other.component? id) :
    c.RowsFrom g other w rows := by
  have hblank := blankRow?_congr htemplate
  rw [RowsFrom, hblank, rowRecords_congr hblank] at h
  exact h

/-- Rows stay what they are while nobody writes to them. -/
theorem keep (h : c.RowsFrom g u w rows)
    (hrows : ∀ row ∈ rows, later.component? row = w.component? row) :
    c.RowsFrom g u later rows :=
  (List.map_congr_left hrows).trans h

end RowsFrom

end Component

/-! ## One row -/

/-- The walk from an object that has nothing nested in it and no template ends with the object. -/
theorem propagate_detached (walk : Walk) {id : ObjectId} {busy : List ObjectId} {c : Component}
    (context : BindingContext) (hread : walk.graph.component? id = some c)
    (hunblocked : c.Unblocked id busy)
    (htemplate : (c.given walk.graph context).itemTemplate? = none)
    (hnested : (c.given walk.graph context).nested = []) (bound : Nat) :
    ∃ warnings, propagate (bound + 1) busy context id walk =
      some ⟨walk.graph.set id (c.filled walk.graph context), warnings⟩ := by
  obtain ⟨warnings, hturn⟩ :=
    propagate_of_stampless walk context hread hunblocked (fun _ => Or.inl htemplate) bound
  rw [hnested] at hturn
  exact ⟨warnings, hturn⟩

namespace Graph

variable {g w : Graph} {context : BindingContext} {D : Set ObjectId} {id : ObjectId} {c : Component}

/-! ## Between turns -/

/-- A graph on the way from `g`: the objects in `D` have had a turn, the others of `g` have not, and
all further objects are rows. -/
structure Passed (g : Graph) (context : BindingContext) (D : Set ObjectId) (w : Graph) : Prop where
  size : g.size ≤ w.size
  known (id : ObjectId) : id ∈ D → id.index < g.size
  kept (id : ObjectId) : id.index < g.size → id ∉ D → w.component? id = g.component? id
  given (id : ObjectId) (c : Component) : g.component? id = some c → id ∈ D →
    ∃ rows, w.component? id = some { c.given g context with rows := rows } ∧
    rows.isSome = c.rows.isSome
  added (id : ObjectId) (c : Component) : g.size ≤ id.index → w.component? id = some c →
    c.Detached g.size

namespace Passed

theorem refl (g : Graph) (context : BindingContext) : g.Passed context ∅ g where
  size := Nat.le_refl _
  known _ hid := hid.elim
  kept _ _ _ := rfl
  given _ _ _ hid := hid.elim
  added _ _ hid hread := absurd (index_lt_size hread) (Nat.not_lt.2 hid)

/-- Whether or not an object has had a turn: the next one gives it the values of the first. -/
theorem component (h : g.Passed context D w) (hg : g.All Component.ConvertsFree)
    (hcontext : ContextFree context) (hid : g.component? id = some c) :
    ∃ current, w.component? id = some current ∧ c.Prunes current ∧
      current.given g context = { c.given g context with rows := current.rows } := by
  by_cases hturn : id ∈ D
  · obtain ⟨rows, hread, hrows⟩ := h.given id c hid hturn
    have hprunes := Component.prunes_given hg hcontext c
    refine ⟨_, hread, hprunes.setRows rows (hrows.trans hprunes.stamps.symm), ?_⟩
    rw [Component.given_setRows, Component.given_given]
  · refine ⟨c, (h.kept id (index_lt_size hid) hturn).trans hid, .refl c, ?_⟩
    exact Component.given_setRows c c.rows

theorem pruned (h : g.Passed context D w) (hg : g.All Component.ConvertsFree)
    (hcontext : ContextFree context) :
    g.Pruned w where
  size := h.size
  component id c hid := by
    obtain ⟨current, hread, hprunes, -⟩ := h.component hg hcontext hid
    exact ⟨current, hread, hprunes⟩
  converts id c hread := by
    by_cases hid : id.index < g.size
    · obtain ⟨own, hown⟩ : ∃ own, g.component? id = some own := ⟨_, Array.getElem?_eq_getElem hid⟩
      obtain ⟨current, hcurrent, hprunes, -⟩ := h.component hg hcontext hown
      rw [hread] at hcurrent
      cases hcurrent
      intro convert hconvert
      exact hg id own hown convert (hprunes.converter ▸ hconvert)
    · exact (h.added id c (Nat.le_of_not_lt hid) hread).converts

/-- Setting a context converts nothing differently. -/
theorem convertsAs (h : g.Pruned w) {converters : List ObjectId}
    (hknown : ∀ x ∈ converters, x.index < g.size) : w.ConvertsAs g converters := by
  intro x hx
  obtain ⟨own, hown⟩ : ∃ own, g.component? x = some own :=
    ⟨_, Array.getElem?_eq_getElem (hknown x hx)⟩
  obtain ⟨pruned, hpruned, hprunes⟩ := h.component x own hown
  rw [hown, hpruned]
  exact hprunes.converter

/-- An object has a turn, or replaces its rows once more. -/
theorem give (h : g.Passed context D w) (hid : g.component? id = some c) {current : Component}
    (hread : w.component? id = some current) (rows : Option (List ObjectId))
    (hrows : rows.isSome = c.rows.isSome) :
    g.Passed context (insert id D) (w.set id { c.given g context with rows := rows }) where
  size := by
    rw [size_set]
    exact h.size
  known x hx := by
    rcases Set.mem_insert_iff.1 hx with rfl | hx
    · exact index_lt_size hid
    · exact h.known x hx
  kept x hlt hx := by
    rw [Set.mem_insert_iff, not_or] at hx
    rw [component?_set_of_ne w (Ne.symm hx.1)]
    exact h.kept x hlt hx.2
  given x own hown hx := by
    by_cases hsame : id = x
    · subst hsame
      rw [hid] at hown
      cases hown
      exact ⟨rows, component?_set_self hread _, hrows⟩
    · rw [component?_set_of_ne w hsame]
      exact h.given x own hown ((Set.mem_insert_iff.1 hx).resolve_left (Ne.symm hsame))
  added x own hx hown := by
    have hne : id ≠ x := by
      rintro rfl
      exact Nat.not_lt.2 hx (index_lt_size hid)
    rw [component?_set_of_ne w hne] at hown
    exact h.added x own hx hown

/-- A row is made. -/
theorem alloc (h : g.Passed context D w) (hc : c.Detached g.size) :
    g.Passed context D (w.alloc c).2 where
  size := by
    rw [size_alloc]
    exact Nat.le_succ_of_le h.size
  known := h.known
  kept x hlt hx := by
    rw [component?_alloc_of_lt w c (Nat.lt_of_lt_of_le hlt h.size)]
    exact h.kept x hlt hx
  given x own hown hx := by
    rw [component?_alloc_of_lt w c (Nat.lt_of_lt_of_le (index_lt_size hown) h.size)]
    exact h.given x own hown hx
  added x own hx hown := by
    rw [component?_alloc] at hown
    split at hown
    · cases hown
      exact hc
    · exact h.added x own hx hown

/-- A row is filled. -/
theorem setRow (h : g.Passed context D w) {row : ObjectId} (hrow : g.size ≤ row.index)
    (hc : c.Detached g.size) : g.Passed context D (w.set row c) := by
  have hold : ∀ x, x.index < g.size → (w.set row c).component? x = w.component? x := by
    intro x hlt
    apply component?_set_of_ne
    rintro rfl
    exact Nat.not_lt.2 hrow hlt
  refine ⟨by rw [size_set]; exact h.size, h.known, fun x hlt hx => ?_, fun x own hown hx => ?_,
    fun x own hx hown => ?_⟩
  · rw [hold x hlt]
    exact h.kept x hlt hx
  · rw [hold x (index_lt_size hown)]
    exact h.given x own hown hx
  · rw [component?_set] at hown
    split at hown
    · obtain ⟨_, _, rfl⟩ := Option.map_eq_some_iff.1 hown
      exact hc
    · exact h.added x own hx hown

end Passed

/-! ## One turn -/

/-- Only the object `id` may have changed, and there may be more objects. -/
structure Beside (w : Graph) (id : ObjectId) (later : Graph) : Prop where
  size : w.size ≤ later.size
  kept (x : ObjectId) : x.index < w.size → x ≠ id → later.component? x = w.component? x

/-- While the object `id` fills its rows in the graph `w`: the rows made so far are filled from
their records. -/
structure Filling (g : Graph) (context : BindingContext) (D : Set ObjectId) (w : Graph)
    (id : ObjectId) (own : Component) (made : List (BindingContext × ObjectId))
    (current : Graph) : Prop extends Passed g context D current where
  beside : w.Beside id current
  filled (entry : BindingContext × ObjectId) : entry ∈ made →
    w.size ≤ entry.2.index ∧ entry.2.index < current.size ∧
      current.component? entry.2 = (own.blankRow? w).map (·.filled g entry.1)

/-- One more row. -/
theorem Filling.fill (hg : g.Quiet) {own blank : Component}
    {made : List (BindingContext × ObjectId)} {current : Walk}
    (h : g.Filling context D w id own made current.graph) (hw : g.size ≤ w.size)
    (hblank : own.blankRow? w = some blank) (halone : blank.Detached g.size)
    {record : BindingContext} (hcontext : ContextFree context) (hrecord : ContextFree record)
    {busy : List ObjectId} (hunblocked : blank.Unblocked (current.graph.alloc blank).1 busy)
    (bound : Nat) :
    ∃ filled, propagate (bound + 1) busy record (current.graph.alloc blank).1
        { current with graph := (current.graph.alloc blank).2 } = some filled ∧
      g.Filling context D w id own (made ++ [(record, (current.graph.alloc blank).1)])
          filled.graph := by
  have hmade := h.toPassed.alloc halone
  have hread := current.graph.component?_alloc_new blank
  have hgiven : blank.given (current.graph.alloc blank).2 record = blank.given g record :=
    Component.given_congr (Passed.convertsAs (hmade.pruned hg.converts hcontext) halone.converters)
  have hfilled : blank.filled (current.graph.alloc blank).2 record = blank.filled g record := by
    rw [Component.filled, Component.filled, hgiven]
  have hprunes := Component.prunes_given hg.converts hrecord blank
  have hdetached := halone.prunes hprunes
  obtain ⟨warnings, hwalk⟩ := propagate_detached
    { current with graph := (current.graph.alloc blank).2 } record hread hunblocked
    (hgiven ▸ hdetached.itemTemplate?) (hgiven ▸ hdetached.nested) bound
  refine ⟨_, hwalk, ?_⟩
  dsimp only
  rw [hfilled]
  have hnew : ∀ x : ObjectId, x.index < current.graph.size →
      ((current.graph.alloc blank).2.set (current.graph.alloc blank).1
        (blank.filled g record)).component? x = current.graph.component? x := by
    intro x hlt
    rw [component?_set_of_ne, component?_alloc_of_lt _ _ hlt]
    rintro rfl
    exact Nat.lt_irrefl _ hlt
  refine ⟨hmade.setRow (Nat.le_trans hw h.beside.size)
    (halone.prunes (hprunes.setRows _ (Option.isSome_map.trans hprunes.stamps.symm))),
    ⟨?_, fun x hlt hne => ?_⟩, ?_⟩
  · rw [size_set, size_alloc]
    exact Nat.le_succ_of_le h.beside.size
  · rw [hnew x (Nat.lt_of_lt_of_le hlt h.beside.size)]
    exact h.beside.kept x hlt hne
  · intro entry hmem
    rw [size_set, size_alloc]
    rcases List.mem_append.1 hmem with hold | hlast
    · obtain ⟨hge, hlt, hrow⟩ := h.filled entry hold
      refine ⟨hge, Nat.lt_succ_of_lt hlt, ?_⟩
      rw [hnew _ hlt]
      exact hrow
    · rw [List.mem_singleton.1 hlast]
      refine ⟨h.beside.size, Nat.lt_succ_self _, ?_⟩
      rw [component?_set_self hread, hblank]
      rfl

/-- The object `id`, `own` but for its rows, has replaced these in the graph `w`. -/
structure Turned (g : Graph) (context : BindingContext) (D : Set ObjectId) (w : Graph)
    (id : ObjectId) (own : Component) (later : Graph) : Prop extends Passed g context D later where
  beside : w.Beside id later
  rows : ∃ rows, later.component? id = some { own with rows := rows } ∧ ∀ list, rows = some list →
    (∀ row ∈ list, w.size ≤ row.index ∧ row.index < later.size) ∧ own.RowsFrom g w later list

/-- All rows are made. -/
theorem Filling.turned {list : List ObjectId} {done : Walk} {rows : Option (List ObjectId)}
    (h : g.Filling context D w id { c.given g context with rows := rows }
      (((c.given g context).rowRecords w).zip list) done.graph)
    (hlength : list.length = ((c.given g context).rowRecords w).length)
      (hid : g.component? id = some c)
    (hturn : id ∈ D) (hstamps : c.rows.isSome = true) (hlt : id.index < w.size) :
    g.Turned context D w id (c.given g context) (done.setRows id list).graph := by
  obtain ⟨left, hleft, _⟩ := h.given id c hid hturn
  have hpassed := h.toPassed.give hid hleft (some list) hstamps.symm
  rw [Set.insert_eq_of_mem hturn] at hpassed
  have hrow : ∀ entry ∈ ((c.given g context).rowRecords w).zip list, w.size ≤ entry.2.index ∧
      entry.2.index < (done.graph.set id { c.given g context with rows := some list }).size ∧
        (done.graph.set id { c.given g context with rows := some list }).component? entry.2 =
          ((c.given g context).blankRow? w).map (·.filled g entry.1) := by
    intro entry hmem
    obtain ⟨hge, hlt', hfilled⟩ := h.filled entry hmem
    have hne : id ≠ entry.2 := by
      rintro rfl
      exact Nat.lt_irrefl _ (Nat.lt_of_lt_of_le hlt hge)
    rw [size_set, component?_set_of_ne _ hne]
    exact ⟨hge, hlt', hfilled⟩
  rw [Walk.graph_setRows hleft]
  refine ⟨hpassed, ⟨?_, fun x hx hne => ?_⟩, some list, component?_set_self hleft _, ?_⟩
  · rw [size_set]
    exact h.beside.size
  · rw [component?_set_of_ne _ (Ne.symm hne)]
    exact h.beside.kept x hx hne
  · rintro _ ⟨⟩
    refine ⟨fun row hmem => ?_, .of_zip hlength fun entry hentry => (hrow entry hentry).2.2⟩
    rw [← List.map_snd_zip (Nat.le_of_eq hlength)] at hmem
    obtain ⟨entry, hentry, rfl⟩ := List.mem_map.1 hmem
    exact ⟨(hrow entry hentry).1, (hrow entry hentry).2.1⟩

/-- **Rows are replaced** by each object that stamps rows, and no other object changes. -/
theorem Passed.turned (hg : g.Quiet) (hcontext : ContextFree context) (walk : Walk)
    (h : g.Passed context D walk.graph) (hid : g.component? id = some c) (hturn : id ∈ D)
    (bound : Nat) :
    ∃ stamped, stampRows (propagate (bound + 1) [id]) id walk = some stamped ∧
      g.Turned context D walk.graph id (c.given g context) stamped.graph := by
  obtain ⟨rows, hread, hrows⟩ := h.given id c hid hturn
  by_cases hstamps : c.rows.isSome = true
  · have hprunes := Component.prunes_given hg.converts hcontext c
    have hcurrent := hprunes.setRows rows (hrows.trans hprunes.stamps.symm)
    have hcleared := h.give hid hread (some []) hstamps.symm
    rw [Set.insert_eq_of_mem hturn] at hcleared
    have hstart : g.Filling context D walk.graph id { c.given g context with rows := rows } []
        (walk.graph.set id { c.given g context with rows := some [] }) :=
      ⟨hcleared, ⟨(size_set _ _ _).ge, fun x _ hne => component?_set_of_ne _ (Ne.symm hne) _⟩,
        fun entry hmem => by cases hmem⟩
    obtain ⟨list, done, hstamp, hlength, hdone⟩ :=
      stampRows_total (propagate (bound + 1) [id]) hread
      (hrows.trans hstamps) hstart fun blank hblank record hrecord made current hmade => by
        obtain ⟨records, hrecords, hmem⟩ := Component.mem_rowRecords hrecord
        have hfree := (hcurrent.lists (hg.lists id c hid)).itemsSource hrecords record hmem
        have hpruned := h.pruned hg.converts hcontext
        have halone := hg.detached_blankRow hpruned hid hstamps hcurrent hblank
        have hunblocked : blank.Unblocked (current.graph.alloc blank).1 [id] :=
          hg.unblocked_blankRow hpruned hid hstamps hcurrent hblank hmade.size
        exact hmade.fill hg h.size hblank halone hcontext hfree hunblocked bound
    exact ⟨done.setRows id list, hstamp,
      hdone.turned hlength hid hturn hstamps (index_lt_size hread)⟩
  · have hnone : rows = none := Option.not_isSome_iff_eq_none.1 (hrows ▸ hstamps)
    refine ⟨walk, stampRows_of_none _ fun own hown => ?_, h, ⟨Nat.le_refl _, fun _ _ _ => rfl⟩,
      rows, hread,
      fun list hlist => ?_⟩
    · rw [hread] at hown
      cases hown
      exact hnone
    · rw [hnone] at hlist
      cases hlist

/-! ## Turn after turn -/

/-- A graph on the way from `g`, in which the objects of `D` have new rows. The rows are those that
the templates of `g` make, except where the template is an object of `T`, the goal of the walk: such
a template may have taken values before. -/
structure Settled (g : Graph) (context : BindingContext) (T D : Set ObjectId) (w : Graph) : Prop
    extends Passed g context D w where
  within : D ⊆ T
  fresh (id : ObjectId) (c : Component) (rows : List ObjectId) : id ∈ D → w.component? id = some c →
    c.rows = some rows → ∀ row ∈ rows, g.size ≤ row.index ∧ row.index < w.size
  filled (id : ObjectId) (c : Component) (rows : List ObjectId) : id ∈ D →
    w.component? id = some c →
    c.rows = some rows → (∀ t, c.itemTemplate? = some t → t ∉ T) → c.RowsFrom g g w rows

namespace Settled

variable {T : Set ObjectId}

theorem refl (g : Graph) (context : BindingContext) (T : Set ObjectId) : g.Settled context T ∅ g :=
  ⟨.refl g context, Set.empty_subset T, fun _ _ _ hid => hid.elim, fun _ _ _ hid => hid.elim⟩

/-- **A turn settles an object**, and keeps the others as they are. -/
theorem turned (h : g.Settled context T D w) (hg : g.Calm) (hid : g.component? id = some c)
    (hT : id ∈ T) {applied : Component} {later : Graph}
    (hlater : g.Turned context (insert id D) (w.set id applied) id (c.given g context) later) :
    g.Settled context T (insert id D) later := by
  have hsize : w.size ≤ later.size := (size_set w id applied).symm.le.trans hlater.beside.size
  have hsame : ∀ x, x.index < w.size → id ≠ x → later.component? x = w.component? x :=
    fun x hlt hne => by
    rw [hlater.beside.kept x ((size_set w id applied).symm ▸ hlt) (Ne.symm hne),
      component?_set_of_ne w hne]
  have hother : ∀ x own, x ∈ insert id D → id ≠ x → later.component? x = some own →
      x ∈ D ∧ w.component? x = some own := by
    intro x own hx hne hread
    have hturn := (Set.mem_insert_iff.1 hx).resolve_left (Ne.symm hne)
    rw [hsame x (Nat.lt_of_lt_of_le (h.known x hturn) h.size) hne] at hread
    exact ⟨hturn, hread⟩
  obtain ⟨rows, hread, hrows⟩ := hlater.rows
  refine ⟨hlater.toPassed, Set.insert_subset hT h.within, fun x own list hx hown hlist => ?_,
    fun x own list hx hown hlist htemplate => ?_⟩
  · by_cases hne : id = x
    · subst hne
      rw [hread] at hown
      cases hown
      intro row hmem
      have hnew := (hrows list hlist).1 row hmem
      rw [size_set] at hnew
      exact ⟨h.size.trans hnew.1, hnew.2⟩
    · obtain ⟨hturn, hold⟩ := hother x own hx hne hown
      intro row hmem
      have hrow := h.fresh x own list hturn hold hlist row hmem
      exact ⟨hrow.1, hrow.2.trans_le hsize⟩
  · by_cases hne : id = x
    · subst hne
      rw [hread] at hown
      cases hown
      refine (hrows list hlist).2.template fun t ht => ?_
      -- the template is not on the way of the walk, so nobody has written to it
      have houtside := htemplate t ht
      rw [Component.itemTemplate?_given] at ht
      have hknown := hg.index_lt_itemTemplate hid ht
      have hne : id ≠ t := by
        rintro rfl
        exact houtside hT
      rw [component?_set_of_ne w hne]
      exact h.kept t hknown fun hturn => houtside (h.within hturn)
    · obtain ⟨hturn, hold⟩ := hother x own hx hne hown
      have hfresh := h.fresh x own list hturn hold hlist
      refine (h.filled x own list hturn hold hlist htemplate).keep fun row hmem => ?_
      refine hsame row (hfresh row hmem).2 ?_
      rintro rfl
      exact Nat.lt_irrefl _ (Nat.lt_of_lt_of_le (index_lt_size hid) (hfresh id hmem).1)

/-- What is nested in an object that has had a turn. -/
theorem nested (h : g.Settled context T D w) (hid : g.component? id = some c) (hturn : id ∈ D) :
    w.nested id = (c.given g context).nested := by
  obtain ⟨rows, hread, -⟩ := h.given id c hid hturn
  rw [Graph.nested, hread]
  rfl

/-- **One turn**: the object takes its values and replaces its rows, and the walk goes on to what is
nested in it now. -/
theorem propagate_eq (h : g.Settled context T D w) (hg : g.Quiet) (hcontext : ContextFree context)
    (hid : g.component? id = some c) (hT : id ∈ T) (bound : Nat) (warnings : List ContextWarning) :
    ∃ stamped, g.Settled context T (insert id D) stamped.graph ∧
      propagate (bound + 2) [] context id ⟨w, warnings⟩ = (c.given g context).nested.foldlM
        (fun walk child => propagate (bound + 1) [] context child walk) stamped := by
  obtain ⟨current, hread, hprunes, hgiven⟩ := h.component hg.converts hcontext hid
  have hknown : ∀ x ∈ current.converters, x.index < g.size := by
    rw [hprunes.converters]
    exact hg.converters id c hid
  have happlied : current.given w context = { c.given g context with rows := current.rows } := by
    rw [← hgiven]
    exact Component.given_congr (Passed.convertsAs (h.pruned hg.converts hcontext) hknown)
  have hpassed := h.toPassed.give hid hread current.rows hprunes.stamps
  rw [← happlied] at hpassed
  obtain ⟨stamped, hstamp, hturned⟩ := Passed.turned hg hcontext
    ⟨w.set id (current.given w context), warnings ++ (current.applyContext w [id] context).2⟩
    hpassed hid (Set.mem_insert id D) bound
  have hsettled := h.turned hg.toCalm hid hT hturned
  have hunblocked := (hg.unblocked hid).prunes hprunes
  refine ⟨stamped, hsettled, ?_⟩
  rw [propagate, hread]
  dsimp only
  rw [hunblocked.updateObject_eq, hstamp, Option.bind_some,
    hsettled.nested hid (Set.mem_insert id D)]

end Settled

end Graph

end MarkupForms
