import MarkupForms.Forms.Framework
import MarkupForms.Proofs.Objects.Propagation

/-!
# What a change of context does

Over a quiet graph a change of context ends, and what it does depends neither on the order of the
walk nor on how often the walk comes to an object: the objects that the root leads to afterwards
have taken the values that they would have taken at the start, and new rows; all others are as they
were. Only a row may show the order, where the template that it was stamped from took values, too.
-/

namespace MarkupForms.Graph

variable {g w : Graph} {context : BindingContext} {D T : Set ObjectId} {id root : ObjectId}
  {c : Component}

/-! ## Changes of context -/

/-- What a change of context makes of the graph `g`; `w.reach root` are the objects that the root
leads to afterwards. -/
structure ContextSet (g : Graph) (context : BindingContext) (root : ObjectId) (w : Graph) :
    Prop where
  known (id : ObjectId) : id ∈ w.reach root → id.index < g.size
  inside (id : ObjectId) (c : Component) : g.component? id = some c → id ∈ w.reach root →
    ∃ rows, rows.isSome = c.rows.isSome ∧ w.component? id = some { c with
      store := c.store.map fun store => (store.applyContext g [] context).1
      rows := rows }
  bindings (id : ObjectId) (c next : Component) : g.component? id = some c →
    w.component? id = some next → next.store.map (·.bindings) = c.store.map (·.bindings)
  outside (id : ObjectId) : id.index < g.size → id ∉ w.reach root →
    w.component? id = g.component? id
  fresh (id : ObjectId) (c : Component) (rows : List ObjectId) : id ∈ w.reach root →
    w.component? id = some c → c.rows = some rows → ∀ row ∈ rows, g.size ≤ row.index ∧
    row.index < w.size
  filled (id : ObjectId) (c : Component) (rows : List ObjectId) : id ∈ w.reach root →
    w.component? id = some c → c.rows = some rows →
      (∀ t, c.itemTemplate? = some t → t ∉ w.reach root) → c.RowsFrom g g w rows

/-- The graph `again` is `w` but for the rows of the objects in `V`. These are new, and equal to the
old ones unless the template is in `V`, too. -/
structure SameButRows (w : Graph) (V : Set ObjectId) (again : Graph) : Prop where
  outside (id : ObjectId) : id.index < w.size → id ∉ V → again.component? id = w.component? id
  inside (id : ObjectId) (c : Component) : w.component? id = some c → id ∈ V →
    ∃ rows, again.component? id = some { c with rows := rows } ∧ rows.isSome = c.rows.isSome ∧
      ∀ list, rows = some list → ∀ row ∈ list, w.size ≤ row.index ∧ row.index < again.size
  equal (id : ObjectId) (c next : Component) (old list : List ObjectId) : id ∈ V →
    w.component? id = some c → again.component? id = some next → c.rows = some old →
    next.rows = some list →
      (∀ t, c.itemTemplate? = some t → t ∉ V) → list.map again.component? = old.map w.component?

theorem Settled.contextSet (h : g.Settled context (w.reach root) (w.reach root) w) (hg : g.Quiet)
    (hcontext : ContextFree context) : g.ContextSet context root w where
  known := h.known
  inside id c hread hid := by
    obtain ⟨rows, hgiven, hrows⟩ := h.given id c hread hid
    rw [Component.given_eq] at hgiven
    exact ⟨rows, hrows, hgiven⟩
  bindings id c next hread hnext := by
    obtain ⟨current, hcurrent, hprunes, -⟩ := h.component hg.converts hcontext hread
    rw [hnext] at hcurrent
    cases hcurrent
    exact hprunes.bindings
  outside := h.kept
  fresh := h.fresh
  filled := h.filled

/-- Rows are filled with the same values again. -/
theorem Passed.filled_again (h : g.Passed context D w) (hg : g.Quiet)
    (hcontext : ContextFree context) (hid : g.component? id = some c) (hrows : c.rows.isSome = true)
    {current : Component} (hprunes : c.Prunes current) (record : BindingContext) :
    (current.blankRow? g).map (·.filled w record) = (current.blankRow? g).map
      (·.filled g record) := by
  cases hmade : current.blankRow? g with
  | none => rw [Option.map_none, Option.map_none]
  | some blank =>
    have halone := hg.detached_blankRow (.refl hg.converts) hid hrows hprunes hmade
    have hgiven : blank.given w record = blank.given g record :=
      Component.given_congr (convertsAs (h.pruned hg.converts hcontext) halone.converters)
    rw [Option.map_some, Option.map_some, Component.filled, Component.filled, hgiven]

/-- A template that is not reached makes the same rows again. -/
theorem Settled.rows_again (h : g.Settled context T D w) (hg : g.Quiet)
    (hcontext : ContextFree context) {current : Component} (hid : id ∈ D)
    (hread : w.component? id = some current) {old list : List ObjectId}
    (hold : current.rows = some old) (houtside : ∀ t, current.itemTemplate? = some t → t ∉ T)
    {again : Graph} (hagain : current.RowsFrom w w again list) :
    list.map again.component? = old.map w.component? := by
  obtain ⟨c, hown⟩ : ∃ c, g.component? id = some c :=
    ⟨_, Array.getElem?_eq_getElem (h.known id hid)⟩
  obtain ⟨pruned, hpruned, hprunes⟩ := (h.pruned hg.converts hcontext).component id c hown
  rw [hread] at hpruned
  cases hpruned
  have hrows : c.rows.isSome = true := by
    rw [← hprunes.stamps, hold]
    rfl
  have htemplate : ∀ t, current.itemTemplate? = some t → w.component? t = g.component? t := by
    intro t ht
    have hknown := hg.index_lt_itemTemplate hown (hprunes.itemTemplate? ▸ ht)
    exact h.kept t hknown fun hturn => houtside t ht (h.within hturn)
  have hsame := hagain.template htemplate
  have hfirst := h.filled id current old hid hread hold houtside
  rw [Component.RowsFrom] at hsame hfirst
  rw [hsame, hfirst]
  exact List.map_congr_left fun record _ => h.filled_again hg hcontext hown hrows hprunes record

/-- The second of two walks over the same objects. -/
theorem Settled.sameButRows {V : Set ObjectId} {again : Graph} (h : g.Settled context V V w)
    (hg : g.Quiet) (hcontext : ContextFree context) (hagain : w.Settled context V V again) :
    w.SameButRows V again where
  outside := hagain.kept
  inside id c hread hid := by
    obtain ⟨rows, hnext, hrows⟩ := hagain.given id c hread hid
    have hfresh := fun list => hagain.fresh id _ list hid hnext
    rw [h.given_again hg hcontext hid hread] at hnext
    exact ⟨rows, hnext, hrows, hfresh⟩
  equal id c next old list hid hread hnext hold hlist houtside := by
    obtain ⟨rows, hgiven, -⟩ := hagain.given id c hread hid
    rw [h.given_again hg hcontext hid hread, hnext] at hgiven
    cases hgiven
    have hfilled := hagain.filled id { c with rows := rows } list hid hnext hlist houtside
    exact h.rows_again hg hcontext hid hread hold houtside hfilled

/-- **A change of context is exact.** Over a quiet graph, with a context without objects, it ends.
Afterwards every object that the root leads to has the store that its bindings make of the store it
had, and everything else that it had but for its rows; every other object is as it was. Once more
with the same context, it ends again and changes nothing but rows: these are replaced by new ones,
equal to the old where their template is not itself among the objects that the root leads to. -/
theorem setContext_exact (hg : g.Quiet) (hroot : root.index < g.size)
    (hcontext : ContextFree context) :
    let w := (g.setContext root context).1
    (propagate (walkBound g) [] context root ⟨g, []⟩).isSome = true ∧ g.ContextSet context root w ∧
      (propagate (walkBound w) [] context root ⟨w, []⟩).isSome = true ∧
        w.SameButRows (w.reach root) (w.setContext root context).1 := by
  intro w
  obtain ⟨hends, -, hsettled⟩ := settled_setContext hg hroot hcontext
  have hquiet : w.Quiet := hsettled.quiet hg hcontext
  obtain ⟨hends', hbelow, hsettled'⟩ :=
    settled_setContext hquiet (hroot.trans_le hsettled.size) hcontext
  have hreach : (w.setContext root context).1.reach root = w.reach root :=
    hbelow.trans (hsettled.below_eq_reach hg hcontext)
  rw [hreach] at hsettled'
  exact ⟨hends, hsettled.contextSet hg hcontext, hends', hsettled.sameButRows hg hcontext hsettled'⟩

/-! ## A list that is met twice -/

theorem acyclic_of_later {g : Graph} (h : ∀ i < g.size, ∀ x ∈ g.nested ⟨i⟩, i < x.index)
    (x : ObjectId) :
    ¬ Relation.TransGen g.Nests x x := by
  have hnests : ∀ a b, g.Nests a b → a.index < b.index := by
    intro a b hab
    by_cases ha : a.index < g.size
    · exact h a.index ha b hab
    · have hnone : g.component? a = none := Array.getElem?_eq_none (Nat.le_of_not_lt ha)
      rw [Nests, Graph.nested, hnone] at hab
      cases hab
  have hlt : ∀ y, Relation.TransGen g.Nests x y → x.index < y.index := by
    intro y hy
    induction hy with
    | single hxy => exact hnests x _ hxy
    | @tail a b _ hab ih => exact ih.trans (hnests a b hab)
  exact fun hx => Nat.lt_irrefl _ (hlt x hx)

/-- Objects that refer to later ones, convert nothing and store no objects, of types whose new
objects are alone, make a calm graph. -/
theorem Calm.of_later {g : Graph} (hclosed : ∀ i < g.size, ∀ x ∈ g.references ⟨i⟩, x.index < g.size)
    (hlater : ∀ i < g.size, ∀ x ∈ g.references ⟨i⟩, i < x.index)
    (hplain : g.All fun c => c.converters = [] ∧ c.converter = none ∧ c.objectValues = [] ∧
      ∀ state, c.type.constructor = some state → state.references = [] ∧ state.converter = none) :
      g.Calm where
  closed o x hx := by
    by_cases ho : o.index < g.size
    · exact hclosed o.index ho x hx
    · rw [references_of_size_le (Nat.le_of_not_lt ho)] at hx
      cases hx
  converters id c hread x hx := by
    rw [(hplain id c hread).1] at hx
    cases hx
  acyclic := acyclic_of_later fun i hi x hx => hlater i hi x ((sublist_nested g ⟨i⟩).subset hx)
  converts id c hread convert hconvert := by
    rw [(hplain id c hread).2.1] at hconvert
    cases hconvert
  templates template htemplate := by
    obtain ⟨_, _, templateId, _, _, _, hread⟩ := htemplate
    exact (hplain templateId template hread).2.2.1
  copies template state htemplate hstate := by
    obtain ⟨_, _, templateId, _, _, _, hread⟩ := htemplate
    obtain ⟨hreferences, hconverter⟩ := (hplain templateId template hread).2.2.2 state hstate
    refine ⟨hreferences, fun convert hconvert => ?_⟩
    rw [show ({ state with type := template.type } : Component).converter =
      none from hconverter] at hconvert
    cases hconvert
  convertersApart id c hread := by
    rw [(hplain id c hread).1]
    exact List.not_mem_nil
  rowsApart id templateId c template hread _ htemplate hreadTemplate := by
    have hlt := hlater id.index (index_lt_size hread) templateId
      (itemTemplate?_mem_references hread htemplate)
    refine ⟨fun heq => Nat.lt_irrefl _ (heq ▸ hlt), ?_⟩
    rw [(hplain templateId template hreadTemplate).1]
    exact List.not_mem_nil

/-- The object with one of its properties bound. -/
def binding (c : Component) (property : ManagedProperty) (path : String) : Component :=
  { c with store := c.store.map (·.setBinding property ⟨path, none, .default⟩) }

/-- A cell whose text is the name in the context. -/
def nameCell : Component :=
  binding { Forms.newTextCell with type := Forms.textCell } ⟨"Text", "TextCell", .text⟩ "Name"

/-- A list with a template. -/
def templateList (template : ObjectId) : Component :=
  { Forms.newListView with
    plainValues := Forms.newListView.plainValues.insert "ItemTemplate" (.object template)
    type := Forms.listView }

/-- A stack with items. -/
def itemStack (items : List ObjectId) : Component :=
  { Forms.newStackLayout with items := some items, type := Forms.stackLayout }

/-- A stack that holds the same list twice; its rows are cells, for the records of the context. -/
def listTwice : Graph :=
  ⟨#[itemStack [⟨1⟩, ⟨1⟩], binding (templateList ⟨2⟩) ⟨"ItemsSource", "ListView", .list⟩ "Items",
    nameCell]⟩

/-- One name. -/
def nameContext : BindingContext :=
  .ofList [("Name", .text "Ann")]

theorem contextFree_nameContext : ContextFree nameContext := by
  intro entry hentry
  rw [List.mem_singleton.1 hentry]
  exact .text "Ann"

/-- A record with a name. -/
def namesContext : BindingContext :=
  .ofList [("Items", .list [nameContext])]

theorem contextFree_namesContext : ContextFree namesContext := by
  intro entry hentry
  rw [List.mem_singleton.1 hentry]
  refine .list fun row hrow => ?_
  rw [List.mem_singleton.1 hrow]
  exact contextFree_nameContext

theorem all_three {Q : Component → Prop} {a b c : Component} (ha : Q a) (hb : Q b) (hc : Q c) :
    Graph.All Q ⟨#[a, b, c]⟩ := by
  intro id own hread
  obtain ⟨index⟩ := id
  have hlt : index < 3 := index_lt_size hread
  match index, hlt with
  | 0, _ => cases hread; exact ha
  | 1, _ => cases hread; exact hb
  | 2, _ => cases hread; exact hc

theorem quiet_listTwice : listTwice.Quiet where
  toCalm := by
    refine .of_later (by decide +kernel) (by decide +kernel) (all_three ?_ ?_ ?_) <;>
      exact ⟨rfl, rfl, rfl, fun _ hstate => by cases hstate; exact ⟨rfl, rfl⟩⟩
  lists := by
    refine all_three ?_ ?_ ?_ <;>
    · intro store rows hstore hmem
      cases hstore
      cases hmem

/-- The list is met twice and stamps a row each time; only the second one is left. -/
theorem setContext_listTwice :
    let w := (listTwice.setContext ⟨0⟩ namesContext).1
    (propagate (walkBound listTwice) [] namesContext ⟨0⟩ ⟨listTwice, []⟩).isSome = true ∧
      listTwice.ContextSet namesContext ⟨0⟩ w ∧
      w.SameButRows (w.reach ⟨0⟩) (w.setContext ⟨0⟩ namesContext).1 ∧
      (w.component? ⟨1⟩).bind (·.rows) = some [⟨4⟩] ∧
      (w.get? ⟨4⟩ "Text").bind Value.asText? = some "Ann" := by
  intro w
  have hroot : (⟨0⟩ : ObjectId).index < listTwice.size := by decide
  obtain ⟨hends, hset, -, hagain⟩ := setContext_exact quiet_listTwice hroot contextFree_namesContext
  exact ⟨hends, hset, hagain, rfl, rfl⟩

/-! ## Where rows reach further, or differ -/

/-- The list with records stored to stamp rows for. -/
def recordList (template : ObjectId) (records : List BindingContext) : Component :=
  { templateList template with
    store := (templateList template).store.map
      (·.setValue ⟨"ItemsSource", "ListView", .list⟩ (.list records)) }

/-- The only record that this list stores holds the label, as the content of the row's page. -/
def storedLabel : Graph :=
  ⟨#[recordList ⟨1⟩ [.ofList [("View", .object ⟨2⟩), ("Name", .text "Ann")]],
    binding { Forms.newContentPage with type := Forms.contentPage } ⟨"Content", "ContentPage",
      .object⟩ "View",
    binding { Forms.newLabel with type := Forms.label } ⟨"Text", "Label", .text⟩ "Name"]⟩

/-- A stack with a list of one empty record, and behind it the cell that the row is stamped from. -/
def listBeforeTemplate : Graph :=
  ⟨#[itemStack [⟨1⟩, ⟨2⟩], recordList ⟨2⟩ [.empty], nameCell]⟩

theorem calm_storedLabel : storedLabel.Calm := by
  refine .of_later (by decide +kernel) (by decide +kernel) (all_three ?_ ?_ ?_) <;>
    exact ⟨rfl, rfl, rfl, fun _ hstate => by cases hstate; exact ⟨rfl, rfl⟩⟩

theorem calm_listBeforeTemplate : listBeforeTemplate.Calm := by
  refine .of_later (by decide +kernel) (by decide +kernel) (all_three ?_ ?_ ?_) <;>
    exact ⟨rfl, rfl, rfl, fun _ hstate => by cases hstate; exact ⟨rfl, rfl⟩⟩

/-- **Calm is not enough, and rows need not repeat.** A record that is stored with an object in it
hands this to its row, and the row's context reaches an object that the root does not lead to, under
an empty context. And a row that is stamped before its template has its turn lacks what the template
takes then; the second time it has it, although nothing but rows has changed. -/
theorem rows_reach_and_differ :
    (storedLabel.Calm ∧ ContextFree .empty ∧
      let w := (storedLabel.setContext ⟨0⟩ .empty).1
      ⟨2⟩ ∉ w.reach ⟨0⟩ ∧ storedLabel.get? ⟨2⟩ "Text" = none ∧
        (w.get? ⟨2⟩ "Text").bind Value.asText? = some "Ann") ∧
    (listBeforeTemplate.Calm ∧ ContextFree nameContext ∧
      let w := (listBeforeTemplate.setContext ⟨0⟩ nameContext).1
      let again := (w.setContext ⟨0⟩ nameContext).1
      (w.component? ⟨1⟩).bind (·.rows) = some [⟨3⟩] ∧ w.get? ⟨3⟩ "Text" = none ∧
        (again.component? ⟨1⟩).bind (·.rows) = some [⟨4⟩] ∧
        (again.get? ⟨4⟩ "Text").bind Value.asText? = some "Ann") := by
  have hreach : ⟨2⟩ ∉ (storedLabel.setContext ⟨0⟩ .empty).1.reach ⟨0⟩ := by
    intro hreach
    -- the list has nothing nested in it
    rcases Relation.ReflTransGen.cases_head hreach with heq | ⟨a, ha, -⟩
    · cases heq
    · have hnone : a ∈ ([] : List ObjectId) := ha
      cases hnone
  refine ⟨⟨calm_storedLabel, ?_, hreach, rfl, rfl⟩,
    ⟨calm_listBeforeTemplate, contextFree_nameContext, ?_⟩⟩
  · intro entry hentry
    cases hentry
  · exact ⟨rfl, rfl, rfl, rfl⟩

end MarkupForms.Graph
