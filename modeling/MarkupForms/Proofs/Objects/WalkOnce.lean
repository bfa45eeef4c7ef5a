import MarkupForms.Proofs.Objects.Updates
import MarkupForms.Proofs.Objects.Traversal

/-!
# Changes of context in a forest

A change of context follows the references that are left after each object has taken its values.
Over a forest, and with nothing that could hand it new objects, it ends and comes to no object
twice. To say the latter, `guardedWalk` is the walk with a list of the objects that it has come to,
which gives up at the first repetition: it does not give up. A row is filled by a walk of its own,
with its own list, since the objects in a template are in the reach of all rows that are stamped
from it.
-/

namespace MarkupForms

/-! ## The guard -/

/-- The walk of `propagate` that gives up where it comes to an object for the second time. `seen`
lists those that it has come to; the walks that fill rows start with none. -/
def guardedWalk : Nat → List ObjectId → BindingContext → ObjectId → List ObjectId × Walk →
    Option (List ObjectId × Walk)
  | 0, _, _, _, _ => none
  | bound + 1, busy, context, id, (seen, walk) =>
    if id ∈ seen then none
    else
      match walk.graph.component? id with
      | none => some (id :: seen, walk)
      | some c =>
        let fill := fun record row walk =>
          (guardedWalk bound (id :: busy) record row ([], walk)).map Prod.snd
        (updateObject fill busy context id c walk).bind fun stamped =>
          (stamped.graph.nested id).foldlM
            (fun state child => guardedWalk bound busy context child state) (id :: seen, stamped)

theorem foldlM_mono {bound : Nat} {busy : List ObjectId} {context : BindingContext}
    (hwalk : ∀ id seen walk seen' done, guardedWalk bound busy context id (seen, walk) =
      some (seen', done) → propagate bound busy context id walk = some done)
    {children seen seen' : List ObjectId} {walk done : Walk}
    (h : children.foldlM (fun state child => guardedWalk bound busy context child state)
      (seen, walk) = some (seen', done)) :
    children.foldlM (fun walk child => propagate bound busy context child walk) walk =
      some done := by
  induction children generalizing seen walk with
  | nil => cases h; rfl
  | cons child children ih =>
    rw [List.foldlM_cons] at h ⊢
    obtain ⟨⟨between, next⟩, hnext, hothers⟩ := Option.bind_eq_some_iff.1 h
    exact Option.bind_eq_some_iff.2 ⟨next, hwalk _ _ _ _ _ hnext, ih hothers⟩

/-- **The guard only stops walks**: where the guarded walk does not give up, it is the walk. -/
theorem propagate_of_guardedWalk {bound : Nat} {busy : List ObjectId} {context : BindingContext}
    {id : ObjectId} {seen seen' : List ObjectId} {walk done : Walk}
    (h : guardedWalk bound busy context id (seen, walk) = some (seen', done)) :
    propagate bound busy context id walk = some done := by
  induction bound generalizing busy context id seen seen' walk done with
  | zero => cases h
  | succ bound ih =>
    rw [guardedWalk] at h
    rw [propagate]
    split at h
    · cases h
    · cases hread : walk.graph.component? id with
      | none => rw [hread] at h; cases h; rfl
      | some c =>
        rw [hread] at h
        obtain ⟨stamped, hstamped, hchildren⟩ := Option.bind_eq_some_iff.1 h
        refine Option.bind_eq_some_iff.2 ⟨stamped,
          updateObject_mono (fun record row walk filled hfill => ?_) hstamped,
          foldlM_mono (fun id seen walk seen' done hwalk => ih hwalk) hchildren⟩
        obtain ⟨⟨own, _⟩, hown, rfl⟩ := Option.map_eq_some_iff.1 hfill
        exact ih hown

/-! ## All visits -/

/-- The objects that walks come to one after the other, each of which starts where the one before
has ended. -/
def visitsInTurn {α : Type} (run : α → Walk → Option Walk) (visit : α → Walk → List ObjectId) :
    List α → Walk → List ObjectId
  | [], _ => []
  | goal :: goals, walk =>
    visit goal walk ++ ((run goal walk).map (visitsInTurn run visit goals)).getD []

/-- The objects that the walk of `propagate` comes to, in order and as often as it does: the object
itself, the rows that it stamps and what they lead to, and then what is nested in it. -/
def visits : Nat → List ObjectId → BindingContext → ObjectId → Walk → List ObjectId
  | 0, _, _, _, _ => []
  | bound + 1, busy, context, id, walk =>
    match walk.graph.component? id with
    | none => [id]
    | some c =>
      let own := c.given walk.graph context
      let updated : Walk := ⟨walk.graph.set id own, walk.warnings⟩
      let inRows := (own.blankRow? updated.graph).toList.flatMap fun blank =>
        let started := fun (walk : Walk) => { walk with graph := (walk.graph.alloc blank).2 }
        visitsInTurn
          (fun record walk => propagate bound (id :: busy) record (walk.graph.alloc blank).1
            (started walk))
          (fun record walk => visits bound (id :: busy) record (walk.graph.alloc blank).1
            (started walk))
          (own.rowRecords updated.graph) (updated.setRows id [])
      let below := (updateObject (propagate bound (id :: busy)) busy context id c walk).map
          fun stamped =>
        visitsInTurn (propagate bound busy context) (visits bound busy context)
          (stamped.graph.nested id) stamped
      id :: inRows ++ below.getD []

/-! ## What the walk leaves of a graph -/

/-- A later state of the graph `g`: its objects may have lost references and won none; and there may
be rows. -/
structure Graph.Pruned (g later : Graph) : Prop where
  size : g.size ≤ later.size
  component (id : ObjectId) (c : Component) : g.component? id = some c →
    ∃ pruned, later.component? id = some pruned ∧ c.Prunes pruned
  converts : later.All Component.ConvertsFree

namespace Graph.Pruned

variable {g later : Graph}

theorem refl (h : g.All Component.ConvertsFree) : g.Pruned g :=
  ⟨Nat.le_refl _, fun _ c hread => ⟨c, hread, .refl c⟩, h⟩

/-- An object loses references. -/
theorem set (h : g.Pruned later) {id : ObjectId} {c next : Component}
    (hread : later.component? id = some c) (hnext : c.Prunes next) :
    g.Pruned (later.set id next) where
  size := by
    rw [size_set]
    exact h.size
  component other own hown := by
    obtain ⟨pruned, hpruned, hprunes⟩ := h.component other own hown
    by_cases hid : id = other
    · subst hid
      rw [hread] at hpruned
      cases hpruned
      exact ⟨next, component?_set_self hread next, hprunes.trans hnext⟩
    · exact ⟨pruned, (component?_set_of_ne later hid next).trans hpruned, hprunes⟩
  converts := by
    refine h.converts.set (fun convert hconvert => ?_) id
    rw [hnext.converter] at hconvert
    exact h.converts id c hread convert hconvert

/-- A row is made. -/
theorem alloc (h : g.Pruned later) {c : Component} (hc : c.ConvertsFree) :
    g.Pruned (later.alloc c).2 where
  size := by
    rw [size_alloc]
    exact Nat.le_succ_of_le h.size
  component id own hown := by
    obtain ⟨pruned, hpruned, hprunes⟩ := h.component id own hown
    refine ⟨pruned, ?_, hprunes⟩
    rw [component?_alloc_of_lt later c (index_lt_size hpruned)]
    exact hpruned
  converts := h.converts.alloc hc

theorem setRows {walk : Walk} (h : g.Pruned walk.graph) {id : ObjectId} {c : Component}
    (hread : walk.graph.component? id = some c) (hrows : c.rows.isSome = true)
    (rows : List ObjectId) :
    g.Pruned (walk.setRows id rows).graph := by
  rw [Walk.graph_setRows hread]
  exact h.set hread ((Component.Prunes.refl c).setRows _ hrows.symm)

theorem nested (h : g.Pruned later) {id : ObjectId} (hid : id.index < g.size) :
    (later.nested id).Sublist (g.nested id) := by
  obtain ⟨c, hread⟩ : ∃ c, g.component? id = some c := ⟨_, Array.getElem?_eq_getElem hid⟩
  obtain ⟨pruned, hpruned, hprunes⟩ := h.component id c hread
  rw [Graph.nested, Graph.nested, hread, hpruned]
  exact hprunes.nested

end Graph.Pruned

/-- The object can be used as a template, or stamp rows itself, without bringing objects in: no list
that it stamps rows for contains an object, and a new object of its type is on its own and converts
to no objects. -/
structure Component.Tame (c : Component) : Prop where
  lists : c.ListsFree
  copies (state : ObjectState) : c.type.constructor = some state →
    state.references = [] ∧ Component.ConvertsFree { state with type := c.type }

/-- What a row refers to before it is filled, it has from the template's store. -/
theorem sublist_nested_blank {state : ObjectState} (h : state.references = [])
    (store : PropertyStore) (type : TypeInfo) :
    ({ state with store := state.store.map fun _ => store, type := type } :
      Component).nested.Sublist (store.values.values.filterMap Value.asObject?) := by
  rw [ObjectState.references, ObjectState.nested, ObjectState.children] at h
  simp only [List.append_eq_nil_iff] at h
  obtain ⟨⟨⟨hitems, -⟩, hentries⟩, -⟩ := h
  rw [ObjectState.nested, ObjectState.children]
  simp only [hitems, hentries, List.nil_append, List.append_nil, ObjectState.objectValues]
  cases state.store with
  | none => exact List.nil_sublist _
  | some own => exact List.Sublist.refl _

/-- The template of an object is among the objects that its plain values are. -/
theorem ObjectState.itemTemplate?_mem {state : ObjectState} {id : ObjectId}
    (h : state.itemTemplate? = some id) : id ∈ state.plainObjects := by
  obtain ⟨value, hvalue, hobject⟩ := Option.bind_eq_some_iff.1 h
  refine List.mem_filterMap.2 ⟨value, ?_, hobject⟩
  exact List.mem_map.2 ⟨_, OrderedMap.mem_of_get? hvalue, rfl⟩

theorem Graph.itemTemplate?_mem_references {g : Graph} {id templateId : ObjectId} {c : Component}
    (hid : g.component? id = some c) (h : c.itemTemplate? = some templateId) :
    templateId ∈ g.references id := by
  rw [references_eq hid]
  exact ObjectState.plainObjects_subset_references (ObjectState.itemTemplate?_mem h)

theorem itemTemplate?_blank {state : ObjectState} (h : state.references = []) :
    state.itemTemplate? = none := by
  rw [ObjectState.references, List.append_eq_nil_iff] at h
  rw [Option.eq_none_iff_forall_ne_some]
  intro id htemplate
  have hmem := ObjectState.itemTemplate?_mem htemplate
  rw [h.2] at hmem
  cases hmem

/-- The template of a blank row, as it was before objects lost references: the object referred to
it, and the row has of the template's values and bindings what the template has kept. -/
theorem Graph.Pruned.template_of_blankRow? {g later : Graph} (h : g.Pruned later)
    (hclosed : g.Closed) {id : ObjectId} {c current blank : Component}
    (hid : g.component? id = some c) (hcurrent : c.Prunes current)
    (hblank : current.blankRow? later = some blank) :
    ∃ templateId own template store state, c.itemTemplate? = some templateId ∧
    templateId ∈ g.references id ∧
      g.component? templateId = some own ∧ own.Prunes template ∧ template.store = some store ∧
      own.type.constructor = some state ∧
      blank = { state with store := state.store.map fun _ => store, type := own.type } := by
  obtain ⟨templateId, template, store, state, htemplate, hread, hstore, hstate, rfl⟩ :=
    Component.blankRow?_eq_some hblank
  rw [hcurrent.itemTemplate?] at htemplate
  have hrefers := itemTemplate?_mem_references hid htemplate
  obtain ⟨own, hown⟩ : ∃ own, g.component? templateId = some own :=
    ⟨_, Array.getElem?_eq_getElem (hclosed id templateId hrefers)⟩
  obtain ⟨pruned, hpruned, hprunes⟩ := h.component templateId own hown
  rw [hread] at hpruned
  cases hpruned
  exact ⟨templateId, own, template, store, state, htemplate, hrefers, hown, hprunes, hstore,
    hprunes.type ▸ hstate, hprunes.type ▸ rfl⟩

/-! ## Forests -/

/-- No converter of an object from the number `start` on leads to it, and none is the object
itself. -/
def Graph.ConvertersApart (g : Graph) (start : Nat) : Prop :=
  ∀ id c x, start ≤ id.index → g.component? id = some c → x ∈ c.converters →
    x.index < g.size ∧ ¬ Relation.ReflTransGen (g.Refers start) x id

namespace Graph.Forest

variable {g : Graph} {start : Nat}

/-- In a forest, what is above an object does not block its update. -/
theorem unblocked (h : g.Forest start) (hapart : g.ConvertersApart start) {id : ObjectId}
    {c : Component} (hid : start ≤ id.index) (hc : g.component? id = some c) {busy : List ObjectId}
    (hbusy : ∀ b ∈ busy, Relation.TransGen (g.Refers start) b id) : c.Unblocked id busy where
  idle hmem := Nat.lt_irrefl _ (h.index_lt (hbusy id hmem))
  converters x hx hmem := by
    obtain ⟨-, hfree⟩ := hapart id c x hid hc hx
    rcases List.mem_cons.1 hmem with rfl | hmem
    · exact hfree .refl
    · exact hfree (hbusy x hmem).to_reflTransGen
  template t _ htemplate hmem := by
    have hlater := h.later id t hid (itemTemplate?_mem_references hc htemplate)
    rcases List.mem_cons.1 hmem with rfl | hmem
    · exact Nat.lt_irrefl _ hlater
    · exact Nat.lt_asymm hlater (h.index_lt (hbusy t hmem))

/-- Nor does it block the update of a row that is stamped from the object. -/
theorem unblocked_row (h : g.Forest start) (hapart : g.ConvertersApart start) {id : ObjectId}
    {c blank : Component} (hid : start ≤ id.index) (hc : g.component? id = some c)
    {busy : List ObjectId} (hbusy : ∀ b ∈ busy, Relation.TransGen (g.Refers start) b id)
    {row : ObjectId} (hrow : g.size ≤ row.index) (hconverters : blank.converters ⊆ c.converters)
    (htemplate : blank.itemTemplate? = none) :
    blank.Unblocked row busy where
  idle hmem := by
    have hlt := h.index_lt (hbusy row hmem)
    have hknown := index_lt_size hc
    omega
  converters x hx hmem := by
    obtain ⟨hknown, hfree⟩ := hapart id c x hid hc (hconverters hx)
    rcases List.mem_cons.1 hmem with rfl | hmem
    · omega
    · exact hfree (hbusy x hmem).to_reflTransGen
  template t _ ht := by
    rw [htemplate] at ht
    cases ht

/-- With this bound the guarded walk ends without repetition, from every object of the forest for
which there are levels enough, while objects above it are busy. -/
def WalksOnce (g : Graph) (start bound : Nat) : Prop :=
  ∀ busy context id seen walk, g.Pruned walk.graph → ContextFree context → start ≤ id.index →
    id.index < g.size → g.size ≤ id.index + bound →
    (∀ b ∈ busy, Relation.TransGen (g.Refers start) b id) →
    (∀ x ∈ seen, ¬ Relation.ReflTransGen (g.Refers start) id x) →
    ∃ seen' done, guardedWalk bound busy context id (seen, walk) = some (seen', done) ∧
      g.Pruned done.graph ∧ ∀ x ∈ seen', x ∈ seen ∨ Relation.ReflTransGen (g.Refers start) id x

/-- The walk through things that one object refers to, one after the other. -/
theorem walksOnce_children (h : g.Forest start) {bound : Nat} (hwalks : WalksOnce g start bound)
    {busy : List ObjectId} {context : BindingContext} (hcontext : ContextFree context)
    {o : ObjectId} (ho : start ≤ o.index) (hbound : g.size ≤ o.index + 1 + bound)
    (hbusy : ∀ b ∈ busy, Relation.TransGen (g.Refers start) b o) {children : List ObjectId}
    (hchildren : children.Sublist (g.references o)) (seen : List ObjectId) (walk : Walk)
    (hwalk : g.Pruned walk.graph)
    (hseen : ∀ x ∈ seen, ∀ a ∈ children, ¬ Relation.ReflTransGen (g.Refers start) a x) :
    ∃ seen' done, children.foldlM (fun state child => guardedWalk bound busy context child state)
      (seen, walk) =
        some (seen', done) ∧ g.Pruned done.graph ∧
      ∀ x ∈ seen', x ∈ seen ∨ ∃ a ∈ children, Relation.ReflTransGen (g.Refers start) a x := by
  have hnodup := (h.nodup_references ho).sublist hchildren
  have hrefers : ∀ a ∈ children, g.Refers start o a := fun a ha => ⟨ho, hchildren.subset ha⟩
  clear hchildren
  induction children generalizing seen walk with
  | nil => exact ⟨seen, walk, rfl, hwalk, fun x hx => Or.inl hx⟩
  | cons child children ih =>
    have hchild := hrefers child List.mem_cons_self
    have hlater := h.later o child hchild.1 hchild.2
    obtain ⟨between, next, hnext, hpruned, hbetween⟩ :=
      hwalks busy context child seen walk hwalk hcontext
      (by omega) (h.closed o child hchild.2) (by omega) (fun b hb => (hbusy b hb).tail hchild)
      (fun x hx => hseen x hx child List.mem_cons_self)
    -- the other children are not above what has been seen below this one
    have hothers : ∀ x ∈ between, ∀ a ∈ children, ¬ Relation.ReflTransGen (g.Refers start) a x := by
      intro x hx a ha hax
      rcases hbetween x hx with hold | hbelow
      · exact hseen x hold a (List.mem_cons_of_mem _ ha) hax
      · have heq := h.eq_of_below hchild (hrefers a (List.mem_cons_of_mem _ ha)) hbelow hax
        subst heq
        exact (List.nodup_cons.1 hnodup).1 ha
    obtain ⟨seen', done, hdone, hlast, hseen'⟩ :=
      ih between next hpruned hothers (List.nodup_cons.1 hnodup).2
      fun a ha => hrefers a (List.mem_cons_of_mem _ ha)
    refine ⟨seen', done, ?_, hlast, fun x hx => ?_⟩
    · rw [List.foldlM_cons]
      exact Option.bind_eq_some_iff.2 ⟨_, hnext, hdone⟩
    · rcases hseen' x hx with hx | ⟨a, ha, hax⟩
      · exact (hbetween x hx).imp_right fun hbelow => ⟨child, List.mem_cons_self, hbelow⟩
      · exact Or.inr ⟨a, List.mem_cons_of_mem _ ha, hax⟩

/-- The walk that fills one row: it goes on to what the template `id` refers to. -/
theorem walksOnce_row (h : g.Forest start) {bound : Nat} (hwalks : WalksOnce g start bound)
    {busy : List ObjectId} {record : BindingContext} (hrecord : ContextFree record) {id : ObjectId}
    (hid : start ≤ id.index) (hbound : g.size ≤ id.index + 1 + bound)
    (hbusy : ∀ b ∈ busy, Relation.TransGen (g.Refers start) b id) {walk : Walk}
    (hwalk : g.Pruned walk.graph) {blank : Component} (hconverts : blank.ConvertsFree)
    (htemplate : blank.itemTemplate? = none) (hnested : blank.nested.Sublist (g.references id))
    (hunblocked : blank.Unblocked ⟨walk.graph.size⟩ busy) :
    ∃ filled, (guardedWalk (bound + 1) busy record ⟨walk.graph.size⟩
        ([], { walk with graph := (walk.graph.alloc blank).2 })).map Prod.snd = some filled ∧
      g.Pruned filled.graph := by
  have hmade : g.Pruned (walk.graph.alloc blank).2 := hwalk.alloc hconverts
  have hread : (walk.graph.alloc blank).2.component? ⟨walk.graph.size⟩ = some blank :=
    walk.graph.component?_alloc_new blank
  generalize (walk.graph.alloc blank).2 = made at hmade hread
  -- the row takes its values and drops the rows that it may have: a new object has no template
  have hstampless : (blank.given made record).Stampless :=
    fun _ => Or.inl ((blank.itemTemplate?_given made record).trans htemplate)
  obtain ⟨warnings, hupdate⟩ :=
    Component.updateObject_of_stampless { walk with graph := made } record hread hunblocked
      hstampless
  have hgiven : blank.Prunes (blank.given made record) :=
    Component.prunes_given hmade.converts hrecord blank
  have hprunes : blank.Prunes (blank.filled made record) :=
    hgiven.setRows _ (Option.isSome_map.trans hgiven.stamps.symm)
  have hchildren : (Graph.nested (made.set ⟨walk.graph.size⟩ (blank.filled made record))
      ⟨walk.graph.size⟩).Sublist (g.references id) := by
    rw [Graph.nested, Graph.component?_set_self hread]
    exact hprunes.nested.trans hnested
  rw [guardedWalk, if_neg List.not_mem_nil, hread]
  dsimp only
  rw [hupdate, Option.bind_some]
  obtain ⟨seen, done, hdone, hpruned, -⟩ :=
    h.walksOnce_children hwalks hrecord hid hbound hbusy hchildren
    [⟨walk.graph.size⟩] ⟨_, warnings⟩ (hmade.set hread hprunes) fun x hx a ha hax => by
      rw [List.mem_singleton.1 hx] at hax
      have hlt : walk.graph.size < g.size :=
        h.lt_size_of_reach (h.closed id a (hchildren.subset ha)) hax
      exact absurd hwalk.size (Nat.not_le.2 hlt)
  exact ⟨done, congrArg (Option.map Prod.snd) hdone, hpruned⟩

section Rows

variable (h : g.Forest start) (hapart : g.ConvertersApart start)
  (htame : ∀ id c, start ≤ id.index → g.component? id = some c → c.Tame)

include h hapart htame

/-- Each row of an object of the forest is filled: its template is an object of the forest, too. -/
theorem walksOnce_fill {bound : Nat} (hwalks : ∀ smaller < bound, WalksOnce g start smaller)
    {busy : List ObjectId} {id : ObjectId} (hid : start ≤ id.index)
    (hbound : g.size ≤ id.index + 1 + bound)
    (hbusy : ∀ b ∈ busy, Relation.TransGen (g.Refers start) b id) {c current blank : Component}
    (hc : g.component? id = some c) (hcurrent : c.Prunes current) {earlier walk : Walk}
    (hearlier : g.Pruned earlier.graph) (hblank : current.blankRow? earlier.graph = some blank)
    {record : BindingContext} (hrecord : record ∈ current.rowRecords earlier.graph)
    (hwalk : g.Pruned walk.graph) :
    ∃ filled, (guardedWalk bound (id :: busy) record (walk.graph.alloc blank).1
        ([], { walk with graph := (walk.graph.alloc blank).2 })).map Prod.snd = some filled ∧
      g.Pruned filled.graph := by
  obtain ⟨records, hrecords, hmem⟩ := Component.mem_rowRecords hrecord
  have hfree := (hcurrent.lists (htame id c hid hc).lists).itemsSource hrecords record hmem
  obtain ⟨templateId, own, template, store, state, -, hrefers, hown, hprunes, hstore,
      hstate, rfl⟩ :=
    hearlier.template_of_blankRow? h.closed hc hcurrent hblank
  -- the template is one of the things that the object refers to, so it stands below it
  have hlater := h.later id templateId hid hrefers
  have hknown := h.closed id templateId hrefers
  obtain ⟨halone, hconverts⟩ := (htame templateId own (by omega) hown).copies state hstate
  have hvalues : (store.values.values.filterMap Value.asObject?).Sublist
      (g.references templateId) := by
    rw [← ObjectState.objectValues_of_store hstore, Graph.references_eq hown]
    exact hprunes.values.trans own.objectValues_sublist_references
  have hbelow : ∀ b ∈ id :: busy, Relation.TransGen (g.Refers start) b templateId := by
    intro b hb
    rcases List.mem_cons.1 hb with rfl | hb
    · exact .single ⟨hid, hrefers⟩
    · exact (hbusy b hb).tail ⟨hid, hrefers⟩
  have hnone : state.itemTemplate? = none := itemTemplate?_blank halone
  have hsame : ({ state with store := state.store.map fun _ => store, type := own.type } :
      Component).converters ⊆ own.converters := by
    rw [← hprunes.converters, ← hprunes.type]
    exact Component.converters_blank_subset hstore state
  obtain ⟨smaller, rfl⟩ : ∃ smaller, bound = smaller + 1 := ⟨bound - 1, by omega⟩
  exact h.walksOnce_row (hwalks smaller (Nat.lt_succ_self _)) hfree (by omega)
    (by omega) hbelow hwalk hconverts
    hnone ((sublist_nested_blank halone store own.type).trans hvalues)
    (h.unblocked_row hapart (by omega) hown hbelow hwalk.size hsame hnone)

/-- All rows of one object. -/
theorem walksOnce_rows {bound : Nat} (hwalks : ∀ smaller < bound, WalksOnce g start smaller)
    {busy : List ObjectId} {id : ObjectId} (hid : start ≤ id.index)
    (hbound : g.size ≤ id.index + 1 + bound)
    (hbusy : ∀ b ∈ busy, Relation.TransGen (g.Refers start) b id) {c current : Component}
    (hc : g.component? id = some c) (hcurrent : c.Prunes current) (walk : Walk)
    (hwalk : g.Pruned walk.graph) (hread : walk.graph.component? id = some current) :
    ∃ stamped, stampRows
        (fun record row walk => (guardedWalk bound (id :: busy) record row ([], walk)).map Prod.snd)
          id walk =
        some stamped ∧ g.Pruned stamped.graph := by
  by_cases hrows : current.rows.isSome = true
  · have hdropped := hwalk.set hread
      ((Component.Prunes.refl current).setRows (some []) hrows.symm)
    obtain ⟨rows, done, hstamp, -, hdone⟩ := stampRows_total (I := fun _ graph => g.Pruned graph)
      (fun record row walk => (guardedWalk bound (id :: busy) record row ([], walk)).map Prod.snd)
      hread hrows hdropped fun blank hblank record hrecord _ current' hcurrent' =>
        h.walksOnce_fill hapart htame hwalks hid hbound hbusy hc hcurrent hwalk hblank hrecord
          hcurrent'
    obtain ⟨last, hlast, hprunes⟩ := hdone.component id c hc
    have hlastRows : last.rows.isSome = true := by rw [hprunes.stamps, ← hcurrent.stamps, hrows]
    exact ⟨done.setRows id rows, hstamp, hdone.setRows hlast hlastRows rows⟩
  · refine ⟨walk, stampRows_of_none _ fun own hown => ?_, hwalk⟩
    rw [hread] at hown
    cases hown
    exact Option.not_isSome_iff_eq_none.1 hrows

/-- **One object**: it takes its values, its rows are filled, and the walk goes on to what is nested
in it. -/
theorem walksOnce (bound : Nat) : WalksOnce g start bound := by
  induction bound using Nat.strongRecOn with
  | _ bound ih =>
    intro busy context id seen walk hwalk hcontext hid hknown hbound hbusy hseen
    obtain ⟨bound, rfl⟩ : ∃ smaller, bound = smaller + 1 := ⟨bound - 1, by omega⟩
    obtain ⟨c, hc⟩ : ∃ c, g.component? id = some c := ⟨_, Array.getElem?_eq_getElem hknown⟩
    obtain ⟨current, hread, hcurrent⟩ := hwalk.component id c hc
    have hunseen : id ∉ seen := fun hmem => hseen id hmem .refl
    have hunblocked := (h.unblocked hapart hid hc hbusy).prunes hcurrent
    have hprunes := Component.prunes_given hwalk.converts hcontext current
    have hself : (walk.graph.set id (current.given walk.graph context)).component? id =
        some (current.given walk.graph context) := Graph.component?_set_self hread _
    obtain ⟨stamped, hstamp, hstamped⟩ := h.walksOnce_rows hapart htame
      (fun smaller hlt => ih smaller (Nat.lt_succ_of_lt hlt)) hid (by omega) hbusy hc
      (hcurrent.trans hprunes) ⟨walk.graph.set id (current.given walk.graph context),
        walk.warnings ++ (current.applyContext walk.graph (id :: busy) context).2⟩
          (hwalk.set hread hprunes) hself
    rw [guardedWalk, if_neg hunseen, hread]
    dsimp only
    rw [hunblocked.updateObject_eq, hstamp, Option.bind_some]
    have hchildren := (hstamped.nested hknown).trans (sublist_nested g id)
    have hbelow : ∀ a ∈ stamped.graph.nested id, g.Refers start id a :=
      fun a ha => ⟨hid, hchildren.subset ha⟩
    obtain ⟨seen', done, hdone, hpruned, hseen'⟩ :=
      h.walksOnce_children (ih bound (Nat.lt_succ_self _))
      hcontext hid (by omega) hbusy hchildren (id :: seen) _ hstamped fun x hx a ha hax => by
        rcases List.mem_cons.1 hx with rfl | hx
        · have hle := h.index_le hax
          have hlt := h.later x a hid (hbelow a ha).2
          omega
        · exact hseen x hx (.head (hbelow a ha) hax)
    refine ⟨seen', done, hdone, hpruned, fun x hx => ?_⟩
    rcases hseen' x hx with hmem | ⟨a, ha, hax⟩
    · rcases List.mem_cons.1 hmem with rfl | hmem
      · exact Or.inr .refl
      · exact Or.inl hmem
    · exact Or.inr (.head (hbelow a ha) hax)

end Rows

end Graph.Forest

end MarkupForms
