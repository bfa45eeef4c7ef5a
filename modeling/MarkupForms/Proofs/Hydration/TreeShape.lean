import MarkupForms.Proofs.Hydration.Converters

/-!
# Hydrated graphs are trees

What a successful load makes is a tree below its root, whatever the registered types, as long as
their new objects stand alone. So the traversals, none of which remembers where it has been, come to
no object twice and end: the search by id, the outline, and the walk of a change of context that
brings no objects in. Rows are filled by walks of their own, each of which goes through what its
template leads to; so the same change of context may come to an object inside a template once for
each row (`rowsText_visitedTwice`).
-/

namespace MarkupForms

/-! ## Trees -/

/-- One object refers to another, in any way. -/
def Graph.Edge (g : Graph) (a b : ObjectId) : Prop :=
  b ∈ g.references a

/-- The objects from the number `start` on form a tree below `root`, apart from those that it does
not lead to: each is referred to at most once in the whole graph, the root not at all, none leads
back to itself, and the root leads to none of the others. -/
structure Graph.TreeFrom (g : Graph) (start : Nat) (root : ObjectId) : Prop where
  root_created : start ≤ root.index ∧ root.index < g.size
  single (x : ObjectId) : start ≤ x.index → g.indegree x ≤ 1
  root_free : g.indegree root = 0
  acyclic (x : ObjectId) : start ≤ x.index → ¬ Relation.TransGen g.Edge x x
  below (x : ObjectId) : Relation.ReflTransGen g.Edge root x → start ≤ x.index ∧ x.index < g.size

theorem Graph.Forest.treeFrom {g : Graph} {start : Nat} {root : ObjectId} (h : g.Forest start)
    (hcreated : start ≤ root.index) (hknown : root.index < g.size) (hfree : g.indegree root = 0) :
    g.TreeFrom start root where
  root_created := ⟨hcreated, hknown⟩
  single := h.single
  root_free := hfree
  acyclic x hx hcycle := Nat.lt_irrefl x.index (h.index_lt_of_transGen hx hcycle)
  below _ hx := h.of_reflTransGen hcreated hknown hx

/-! ## What new objects do not bring in -/

/-- The constructors of registered types store no list with an object in it to stamp rows for, and
their objects, as converters, return no object unless they are given one. -/
def Catalog.NewObjectsFree (catalog : Catalog) : Prop :=
  ∀ type state, catalog.Contains type → type.constructor = some state →
    Component.ListsFree { state with type := type } ∧
    Component.ConvertsFree { state with type := type }

namespace Hydration

open Markup

/-- Coerced markup is no list. -/
theorem asList?_of_coerce {typeOf : ObjectId → String} {kind : ValueKind} {name : String}
    {raw : RawValue} {value : Value} (h : coerce typeOf kind name raw = .ok value) :
    value.asList? = none := by
  cases raw with
  | text content =>
    rw [coerce] at h
    cases hread : readValue? kind content with
    | none => simp only [hread] at h; cases h
    | some own =>
      simp only [hread] at h
      cases h
      cases kind with
      | text | object => cases hread; rfl
      | int | float | bool | enum info =>
        obtain ⟨_, _, rfl⟩ := Option.map_eq_some_iff.1 hread
        rfl
      | list => cases hread
  | object id =>
    cases kind with
    | object => cases h; rfl
    | text | int | float | bool | enum info | list => cases h

/-- No converter in the graph of the pass brings objects in, and the objects from the number `start`
on are tame. -/
structure AllTame (catalog : Catalog) (start : Nat) (p : Pass) : Prop where
  catalog : p.resolver.catalog = catalog
  converts : p.graph.All Component.ConvertsFree
  tame (id : ObjectId) (c : Component) : start ≤ id.index → p.graph.component? id = some c → c.Tame

namespace AllTame

variable {catalog : Catalog} {start : Nat} {p : Pass}

/-- Writing to an object leaves its type and its converter alone. -/
theorem write (h : AllTame catalog start p) {target : ObjectId} {c next : Component}
    (hread : p.graph.component? target = some c) (htype : next.type = c.type)
    (hconverter : next.converter = c.converter) (hlists : c.ListsFree → next.ListsFree) :
    AllTame catalog start (p.update target next) where
  catalog := h.catalog
  converts := by
    refine h.converts.set (fun convert hconvert => ?_) target
    rw [hconverter] at hconvert
    exact h.converts target c hread convert hconvert
  tame id own hid hown := by
    by_cases htarget : target = id
    · subst htarget
      have hwritten : some next = some own := (Graph.component?_set_self hread next).symm.trans hown
      cases hwritten
      have hc := h.tame target c hid hread
      refine ⟨hlists hc.lists, ?_⟩
      rw [htype]
      exact hc.copies
    · exact h.tame id own hid ((Graph.component?_set_of_ne p.graph htarget next).symm.trans hown)

theorem assign (h : AllTame catalog start p) {next : Pass} {target : ObjectId} {type : TypeInfo}
    {name : String} {raw : RawValue} (hassign : p.assign target type name raw = .ok next) :
    AllTame catalog start next := by
  cases Pass.assigned_of_assign hassign with
  | shared => exact ⟨h.catalog, h.converts, h.tame⟩
  | dangling => exact h
  | bound c store property binding text _ _ _ _ _ hread hstore =>
    refine h.write hread rfl rfl fun hlists own rows hown hmem => ?_
    cases hown
    exact hlists store rows hstore hmem
  | managed c store property value _ _ _ hvalue hread hstore =>
    refine h.write hread rfl rfl fun hlists own rows hown hmem => ?_
    cases hown
    rcases OrderedMap.mem_insert hmem with hnew | hold
    · have hlist := asList?_of_coerce hvalue
      rw [← (Prod.mk.inj hnew).2] at hlist
      cases hlist
    · exact hlists store rows hstore hold
  | plain c state kind value _ _ _ _ _ hread hwrite =>
    rw [Pass.setPlain_eq_ok hwrite]
    exact h.write hread rfl rfl fun hlists => hlists

end AllTame

/-- **Tameness**, as a promise. -/
def tameness {catalog : Catalog} (hnew : catalog.NewObjectsAlone) (hfree : catalog.NewObjectsFree)
    (start : Nat) : PassInvariant where
  Holds := AllTame catalog start
  Open _ _ _ := True
  Made _ _ := True
  resolves {p} tag h :=
    ⟨⟨(p.catalog_resolveTag tag).trans h.catalog, h.converts, h.tame⟩, fun _ _ _ => trivial,
      fun _ _ => trivial⟩
  constructs {p resolved tag type object graph} h hresolve hmade := by
    have hcatalog := p.catalog_resolveTag tag
    have hgraph := p.graph_resolveTag tag
    rw [hresolve] at hcatalog hgraph
    have hcontains : catalog.Contains type := h.catalog ▸ Pass.contains_of_resolveTag hresolve
    obtain ⟨state, hstate, halloc⟩ := construct_eq_ok hmade
    rw [hgraph] at halloc
    cases halloc
    have hown := hfree type state hcontains hstate
    refine ⟨⟨⟨hcatalog.trans h.catalog, h.converts.alloc hown.2, fun id c hid hread => ?_⟩,
      fun _ _ _ => trivial, fun _ _ => trivial⟩, trivial, trivial⟩
    replace hread : (p.graph.alloc { state with type := type }).2.component? id = some c := hread
    rw [Graph.component?_alloc] at hread
    split at hread
    · cases hread
      refine ⟨hown.1, fun other hother => ?_⟩
      exact ⟨hnew type other hcontains hother, (hfree type other hcontains hother).2⟩
    · exact h.tame id c hid hread
  assigns h _ _ hassign := ⟨h.assign hassign, fun _ _ _ => trivial, fun _ _ => trivial⟩
  declares key h _ := ⟨⟨h.catalog, h.converts, h.tame⟩, fun _ _ _ => trivial, fun _ _ => trivial⟩
  inserts {p object child type} h _ _ := by
    have hinserted := p.inserted_insertChild object type child
    generalize p.insertChild object type child = outcome at hinserted
    cases hinserted with
    | item c items _ hread _ =>
      exact ⟨h.write hread rfl rfl fun hlists => hlists, fun _ _ _ => trivial, fun _ _ => trivial⟩
    | entry c entries key resources _ _ hread _ _ =>
      have hfilled : AllTame catalog start
          (p.update object { c with entries := some (entries.insert key child) }) :=
        h.write hread rfl rfl fun hlists => hlists
      exact ⟨⟨hfilled.catalog, hfilled.converts, hfilled.tame⟩, fun _ _ _ => trivial,
        fun _ _ => trivial⟩
    | refused _ keys _ =>
      exact ⟨⟨h.catalog, h.converts, h.tame⟩, fun _ _ _ => trivial, fun _ _ => trivial⟩

theorem allTame_of_load {g : Graph} {catalog : Catalog} (hnew : catalog.NewObjectsAlone)
    (hfree : catalog.NewObjectsFree) (hconverts : g.All Component.ConvertsFree)
    (localModule : Option String) (text : String) :
    (LoadRequest.load ⟨g, catalog, localModule, none⟩ text).2.All Component.ConvertsFree ∧
      ∀ id c, g.size ≤ id.index →
        (LoadRequest.load ⟨g, catalog, localModule, none⟩ text).2.component? id = some c →
        c.Tame := by
  have hstart : (tameness hnew hfree g.size).Holds
      (LoadRequest.pass ⟨g, catalog, localModule, none⟩) := by
    refine ⟨rfl, hconverts, fun id c hid hread => ?_⟩
    exact absurd (Graph.index_lt_size hread) (Nat.not_lt.2 hid)
  have hrun : (tameness hnew hfree g.size).Advances
      (LoadRequest.pass ⟨g, catalog, localModule, none⟩)
      (Hydration.assemble (Position.ofOffset? text.toList)
        (LoadRequest.pass ⟨g, catalog, localModule, none⟩)
        (.prolog none) (NodeFeed.ofText text.toList)).2 := by
    apply PassInvariant.assemble _ _ hstart
    intro given hnone
    cases hnone
  exact ⟨hrun.holds.converts, hrun.holds.tame⟩

/-! ## Loads -/

/-- **A hydrated graph is a tree.** If a text is loaded into a new root, over any catalogue whose
constructors return objects that stand alone, then the objects that the load made form a tree below
the root. Hence

* the search by id goes through the objects below the root in one order, without repetition, until
  it has found the id, and it ends by itself: its bound, from the number of objects on, does not
  matter;
* the outline has one line for each object of the visual tree, and ends by itself as well;
* a change of context ends, and the walk from the root through what is nested comes to no object
  twice, provided that neither a context, be it the given one or a record in a list that a
  constructor stores, nor a converter brings objects in, and that converters which new objects bring
  along were there before. Rows are nested in nothing: each is filled by a walk that starts at the
  row, and which comes to no object twice, either. -/
theorem load_tree {g after : Graph} {catalog : Catalog} {localModule : Option String}
    {text : String} {root : ObjectId} (hclosed : g.Closed) (hnew : catalog.NewObjectsAlone)
    (h : LoadRequest.load ⟨g, catalog, localModule, none⟩ text = (.ok root, after)) :
    after.TreeFrom g.size root ∧
      ((root :: after.levels root).Nodup ∧
        ∀ id, after.findById root id = (after.levels root).find? (after.hasId id) ∧
          ∀ bound ≥ after.size, after.searchLevels id bound (after.nested root) =
            after.findById root id) ∧
      (((after.preorder root).map Prod.snd).Nodup ∧
        after.outline root =
          String.join ((after.preorder root).map fun line => after.outlineLine line.1 line.2) ∧
        ∀ bound ≥ after.size, after.outlineLevels bound 0 root = after.outline root) ∧
      (catalog.NewObjectsFree → g.All Component.ConvertsFree →
        (∀ x, catalog.Supplies x → x.index < g.size) → ∀ context, ContextFree context → ∃ seen walk,
          guardedWalk (walkBound after) [] context root ([], ⟨after, []⟩) = some (seen, walk) ∧
            after.setContext root context = (walk.graph, walk.warnings)) := by
  obtain ⟨hforest, hcreated, hknown, hfree⟩ := grown_of_load hclosed hnew h
  have hsearch : ∀ id bound, after.size ≤ bound →
      after.searchLevels id bound (after.nested root) = (after.levels root).find?
        (after.hasId id) :=
    fun id bound hbound => hforest.searchLevels_eq hcreated id hbound
  have hfind : ∀ id, after.findById root id = (after.levels root).find? (after.hasId id) :=
    fun id => hsearch id (after.size + 1) (Nat.le_succ _)
  have hlines : ∀ bound ≥ after.size, after.outlineLevels bound 0 root =
      String.join ((after.preorder root).map fun line => after.outlineLine line.1 line.2) :=
    fun bound hbound => hforest.outlineLevels_eq hcreated hknown hbound
  have houtline := hlines (after.size + 1) (Nat.le_succ _)
  refine ⟨hforest.treeFrom hcreated hknown hfree,
    ⟨hforest.nodup_levels hcreated, fun id => ⟨hfind id, ?_⟩⟩,
    ⟨hforest.nodup_preorder hcreated, houtline, ?_⟩, ?_⟩
  · intro bound hbound
    rw [hsearch id bound hbound, hfind id]
  · intro bound hbound
    rw [hlines bound hbound]
    exact houtline.symm
  · intro hcalm hconverts hsupplied context hcontext
    obtain ⟨hconverts', htame⟩ := allTame_of_load hnew hcalm hconverts localModule text
    rw [h] at hconverts' htame
    have hapart : after.ConvertersApart g.size := convertersApart_of_load hclosed hnew hsupplied h
    have hbound : after.size ≤ root.index + walkBound after := by
      have hle : after.size + 2 ≤ walkBound after := Nat.le_mul_of_pos_left _ (Nat.succ_pos _)
      omega
    obtain ⟨seen, walk, hwalk, -, -⟩ :=
      hforest.walksOnce hapart htame (walkBound after) [] context root []
      ⟨after, []⟩ (.refl hconverts') hcontext hcreated hknown hbound (fun b hb => by
        cases hb) fun x hx => by cases hx
    refine ⟨seen, walk, hwalk, ?_⟩
    unfold Graph.setContext
    rw [propagate_of_guardedWalk hwalk]

/-! ## A list with a page for each row -/

theorem newObjectsAlone_forms : Forms.catalog.NewObjectsAlone := by
  intro type state hcontains hstate
  have htype := Forms.contains_iff.1 hcontains
  simp only [Forms.types, List.mem_cons, List.not_mem_nil, or_false] at htype
  rcases htype with rfl | rfl | rfl | rfl | rfl | rfl | rfl | rfl | rfl | rfl | rfl <;>
    cases hstate <;> rfl

theorem newObjectsFree_forms : Forms.catalog.NewObjectsFree := by
  intro type state hcontains hstate
  have htype := Forms.contains_iff.1 hcontains
  have hblank := (Forms.regular_of_mem htype).blank hstate
  refine ⟨fun store rows hstore hmem => ?_, fun convert hconvert => ?_⟩
  · rw [hblank.store store hstore] at hmem
    cases hmem
  · simp only [Forms.types, List.mem_cons, List.not_mem_nil, or_false] at htype
    rcases htype with rfl | rfl | rfl | rfl | rfl | rfl | rfl | rfl | rfl | rfl | rfl <;>
      cases hstate <;>
      cases hconvert

/-- New objects of the framework bring no resources along. -/
theorem not_supplies_forms (x : ObjectId) : ¬ Forms.catalog.Supplies x := by
  rintro ⟨type, state, hcontains, hstate, huses⟩
  have htype := Forms.contains_iff.1 hcontains
  simp only [Forms.types, List.mem_cons, List.not_mem_nil, or_false] at htype
  rcases huses with ⟨store, name, bound, hstore, hmem, -⟩ | ⟨entries, key, hentries, hmem⟩
  · rcases htype with rfl | rfl | rfl | rfl | rfl | rfl | rfl | rfl | rfl | rfl | rfl <;>
      cases hstate <;>
      cases hstore <;> cases hmem
  · rcases htype with rfl | rfl | rfl | rfl | rfl | rfl | rfl | rfl | rfl | rfl | rfl <;>
      cases hstate <;>
      cases hentries
    -- only a dictionary has entries
    cases hmem

/-- A list whose rows are pages around a label. -/
def rowsText : String :=
  "<ListView ItemsSource='\x7bBinding Items\x7d'><ListView.ItemTemplate><ContentPage>" ++
    "<ContentPage.Content><Label Text='\x7bBinding Name\x7d'/></ContentPage.Content>" ++
    "</ContentPage></ListView.ItemTemplate></ListView>"

/-- A start tag without prefix and attributes. -/
def bareTag (name : String) : StartTag :=
  ⟨⟨name, name, ""⟩, [], false⟩

/-- The tree of `rowsText`. -/
def rowsDocument : Document where
  prolog := []
  root :=
    .enclosing ⟨0, 0⟩
      ⟨⟨"ListView", "ListView", ""⟩,
        [⟨⟨"ItemsSource", "ItemsSource", ""⟩, "\x7bBinding Items\x7d"⟩], false⟩ rfl
      (.element
        (.enclosing ⟨40, 0⟩ (bareTag "ListView.ItemTemplate") rfl
          (.element
            (.enclosing ⟨63, 0⟩ (bareTag "ContentPage") rfl
              (.element
                (.enclosing ⟨76, 0⟩ (bareTag "ContentPage.Content") rfl
                  (.element
                    (.selfClosed ⟨97, 0⟩
                      ⟨⟨"Label", "Label", ""⟩, [⟨⟨"Text", "Text", ""⟩, "\x7bBinding Name\x7d"⟩],
                        true⟩ rfl)
                    .none)
                  ⟨127, 0⟩)
                .none)
              ⟨149, 0⟩)
            .none)
          ⟨163, 0⟩)
        .none)
      ⟨187, 0⟩
  epilog := []
  finish := ⟨198, 0⟩

theorem rowsText_feed : NodeFeed.ofText rowsText.toList = rowsDocument.feed := by
  unfold rowsText
  iterate 2 rw [String.toList_append]
  iterate 3 rw [String.toList_ofList]
  rw [NodeFeed.ofText_eq]
  decide +kernel

theorem rowsText_unmarked : rowsText.toList.head? ≠ some '\ufeff' := by
  decide +kernel

/-- Two records. -/
def rowsContext : BindingContext :=
  .ofList [("Items", .list [.ofList [("Name", .text "Ann")], .ofList [("Name", .text "Ben")]])]

theorem contextFree_rowsContext : ContextFree rowsContext := by
  have hrecord : ∀ name, ContextFree (.ofList [("Name", .text name)]) := by
    intro name entry hentry
    rw [List.mem_singleton.1 hentry]
    exact .text name
  intro entry hentry
  rw [List.mem_singleton.1 hentry]
  refine .list fun row hrow => ?_
  rcases List.mem_cons.1 hrow with rfl | hrow
  · exact hrecord "Ann"
  · rw [List.mem_singleton.1 hrow]
    exact hrecord "Ben"

set_option maxRecDepth 4000 in
/-- `rowsText` makes a list, its template and the label in it, which nothing refers to twice. Both
rows are then filled through that label, each by a walk of its own, so it keeps the text of the last
record. -/
theorem load_tree_rowsText :
    let after := (LoadRequest.load ⟨.empty, Forms.catalog, none, none⟩ rowsText).2
    (LoadRequest.load ⟨.empty, Forms.catalog, none, none⟩ rowsText).1 = .ok ⟨0⟩ ∧
      after.TreeFrom 0 ⟨0⟩ ∧
      (∃ seen walk, guardedWalk (walkBound after) [] rowsContext ⟨0⟩ ([], ⟨after, []⟩) =
        some (seen, walk) ∧ after.setContext ⟨0⟩ rowsContext = (walk.graph, walk.warnings)) ∧
      ((after.setContext ⟨0⟩ rowsContext).1.get? ⟨2⟩ "Text").bind Value.asText? = some "Ben" := by
  intro after
  have hload : (LoadRequest.load ⟨.empty, Forms.catalog, none, none⟩ rowsText).1 = .ok ⟨0⟩ := by
    rw [LoadRequest.load_eq_ok rowsText_feed rowsText_unmarked ⟨0⟩ rfl]
  have hclosed : Graph.empty.Closed := fun o x hx => by cases hx
  have hconverts : Graph.empty.All Component.ConvertsFree := fun id c hread => by cases hread
  -- by `rfl`, the second component would be computed
  have hpair := (Prod.eta (LoadRequest.load ⟨.empty, Forms.catalog, none, none⟩ rowsText)).symm
  rw [hload] at hpair
  obtain ⟨htree, -, -, hwalk⟩ := load_tree hclosed newObjectsAlone_forms hpair
  refine ⟨hload, htree, hwalk newObjectsFree_forms hconverts
    (fun x hx => absurd hx (not_supplies_forms x)) rowsContext contextFree_rowsContext, ?_⟩
  unfold after
  rw [LoadRequest.load_eq_ok rowsText_feed rowsText_unmarked ⟨0⟩ rfl]
  rfl

set_option maxRecDepth 4000 in
/-- **One change of context, two visits.** Neither the context nor a converter brings objects in,
and the graph of `rowsText` is a tree; yet the change of context comes to the label in the template
twice, once for each row. -/
theorem rowsText_visitedTwice :
    let after := (LoadRequest.load ⟨.empty, Forms.catalog, none, none⟩ rowsText).2
    (LoadRequest.load ⟨.empty, Forms.catalog, none, none⟩ rowsText).1 = .ok ⟨0⟩ ∧
      Forms.catalog.NewObjectsAlone ∧ ContextFree rowsContext ∧ after.All Component.ConvertsFree ∧
      visits (walkBound after) [] rowsContext ⟨0⟩ ⟨after, []⟩ = [⟨0⟩, ⟨3⟩, ⟨2⟩, ⟨4⟩, ⟨2⟩] := by
  intro after
  have hload : LoadRequest.load ⟨.empty, Forms.catalog, none, none⟩ rowsText = _ :=
    LoadRequest.load_eq_ok rowsText_feed rowsText_unmarked ⟨0⟩ rfl
  have hconverts : Graph.empty.All Component.ConvertsFree := fun id c hread => by cases hread
  refine ⟨by rw [hload], newObjectsAlone_forms, contextFree_rowsContext, ?_, ?_⟩
  · exact (allTame_of_load newObjectsAlone_forms newObjectsFree_forms hconverts none rowsText).1
  · unfold after
    rw [hload]
    rfl

end Hydration

end MarkupForms
