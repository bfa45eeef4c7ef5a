import MarkupForms.Proofs.Hydration.Frame
import MarkupForms.Proofs.OrderedMap

/-!
# What a pass touches and what it sees

A pass writes to its own root and to the objects that it makes; every other object is afterwards
what it was before, also one that the root refers to, and also if the pass fails. Nor do passes see
each other's declarations: the resources that a binding expression can name, and the keys under
which children are inserted, were declared by the pass itself.
-/

namespace MarkupForms

/-- The object serves the state as a resource: as the converter of a binding, or as a keyed
entry. -/
def ObjectState.UsesResource (state : ObjectState) (used : ObjectId) : Prop :=
  (∃ store name bound, state.store = some store ∧ (name, bound) ∈ store.bindings.toList ∧
    bound.binding.converter = some used) ∨
  ∃ entries key, state.entries = some entries ∧ (key, used) ∈ entries.toList

/-- The constructor of a registered type brings the resource along. -/
def Catalog.Supplies (catalog : Catalog) (used : ObjectId) : Prop :=
  ∃ type state, catalog.Contains type ∧ type.constructor = some state ∧ state.UsesResource used

namespace Hydration

open Markup

/-- The converter of a binding that is read is one of the resources. -/
theorem Pass.mem_resources_of_readBinding {resources : ResourceTable} {text : String}
    {binding : Binding} (h : readBinding resources text = .ok binding) {converter : ObjectId}
    (hconverter : binding.converter = some converter) :
    ∃ key, (key, converter) ∈ resources.toList := by
  unfold readBinding at h
  split at h
  · cases h
  · cases h
    obtain ⟨key, -, hkey⟩ := Option.bind_eq_some_iff.1 hconverter
    exact ⟨key, OrderedMap.mem_of_get? hkey⟩

/-! ## The promise -/

/-- The pass made the object, or it was given the object as its root. -/
def MadeOrGiven (before : Pass) (root : Option ObjectId) (p : Pass) (object : ObjectId) : Prop :=
  MadeSince before p object ∨ root = some object

/-- A resource of the pass itself: an object that it made, or one that came with an object that it
made. -/
def OwnResource (before p : Pass) (used : ObjectId) : Prop :=
  MadeSince before p used ∨ before.resolver.catalog.Supplies used

/-- What `before` held is still there, apart from the root; and the tables hold what was declared
since. -/
structure Isolated (before : Pass) (root : Option ObjectId) (p : Pass) : Prop where
  catalog : p.resolver.catalog = before.resolver.catalog
  size : before.graph.size ≤ p.graph.size
  untouched {object : ObjectId} : object.index < before.graph.size → root ≠ some object →
    p.graph.component? object = before.graph.component? object
  resources {key : String} {used : ObjectId} : (key, used) ∈ p.resources.toList →
    OwnResource before p used
  keys {object : ObjectId} {key : String} : (object, key) ∈ p.keys.declared →
    MadeOrGiven before root p object
  uses {object used : ObjectId} {c : Component} : p.graph.component? object = some c →
    c.UsesResource used → OwnResource before p used ∨
      ∃ old, before.graph.component? object = some old ∧ old.UsesResource used

namespace Isolated

variable {before p : Pass} {root : Option ObjectId}

/-- The resources that the pass found on an object it made are its own. -/
theorem ownResource_of_uses (h : Isolated before root p) {object used : ObjectId}
    (hmade : MadeSince before p object) {c : Component} (hread : p.graph.component? object = some c)
    (huses : c.UsesResource used) : OwnResource before p used := by
  rcases h.uses hread huses with hown | ⟨old, hold, -⟩
  · exact hown
  · have hlt := Graph.index_lt_size hold
    have hle := hmade.1
    omega

/-- Writing to an object that the pass made or was given, without new resources but its own. -/
theorem write (h : Isolated before root p) {target : ObjectId}
    (htarget : MadeOrGiven before root p target) {own c : Component}
    (hread : p.graph.component? target = some own)
    (huses : ∀ used, c.UsesResource used → own.UsesResource used ∨ OwnResource before p used) :
    Isolated before root (p.update target c) where
  catalog := h.catalog
  size := by
    rw [Pass.update, Graph.size_set]
    exact h.size
  untouched {object} hobject hroot := by
    have hne : target ≠ object := by
      rintro rfl
      rcases htarget with hmade | hgiven
      · exact absurd hobject (Nat.not_lt.2 hmade.1)
      · exact hroot hgiven
    exact (Graph.component?_set_of_ne p.graph hne c).trans (h.untouched hobject hroot)
  resources hmem := by
    rw [OwnResource, MadeSince, Pass.update, Graph.size_set]
    exact h.resources hmem
  keys hmem := by
    rw [MadeOrGiven, MadeSince, Pass.update, Graph.size_set]
    exact h.keys hmem
  uses {object used other} hother hused := by
    rw [OwnResource, MadeSince, Pass.update, Graph.size_set]
    by_cases htarget : target = object
    · subst htarget
      have hwritten : some c = some other := (Graph.component?_set_self hread c).symm.trans hother
      cases hwritten
      rcases huses used hused with hown | hresource
      · exact h.uses hread hown
      · exact Or.inl hresource
    · exact h.uses ((Graph.component?_set_of_ne p.graph htarget c).symm.trans hother) hused

/-- More resources, each of them the pass's own. -/
theorem share (h : Isolated before root p) (resources : ResourceTable)
    (hresources : ∀ key used, (key, used) ∈ resources.toList → OwnResource before p used) :
    Isolated before root { p with resources := resources } :=
  ⟨h.catalog, h.size, h.untouched, fun {key used} => hresources key used, h.keys, h.uses⟩

/-- Other keys, on objects that the pass made or was given. -/
theorem withKeys (h : Isolated before root p) {keys : KeyTable}
    (hkeys : ∀ object key, (object, key) ∈ keys.declared → MadeOrGiven before root p object) :
    Isolated before root { p with keys := keys } :=
  ⟨h.catalog, h.size, h.untouched, h.resources, fun {object key} => hkeys object key, h.uses⟩

theorem eraseKey (h : Isolated before root p) (child : ObjectId) :
    Isolated before root { p with keys := p.keys.erase child } := by
  apply h.withKeys
  intro object key hmem
  exact h.keys (List.mem_of_mem_filter hmem)

theorem declareKey (h : Isolated before root p) {object : ObjectId}
    (hobject : MadeOrGiven before root p object) (key : String) :
    Isolated before root { p with keys := p.keys.declare object key } := by
  apply h.withKeys
  intro other name hmem
  rcases List.mem_cons.1 hmem with hnew | hold
  · cases hnew
    exact hobject
  · exact h.keys (List.mem_of_mem_filter hold)

/-- Making an object of a registered type. -/
theorem alloc (h : Isolated before root p) {type : TypeInfo} {state : ObjectState}
    (hcontains : before.resolver.catalog.Contains type) (hstate : type.constructor = some state)
    {next : Pass} (hcatalog : next.resolver.catalog = p.resolver.catalog)
    (hgraph : next.graph = (p.graph.alloc { state with type := type }).2)
    (hresources : next.resources = p.resources) (hkeys : next.keys = p.keys) :
    Isolated before root next := by
  have hsize : next.graph.size = p.graph.size + 1 := by
    rw [hgraph, Graph.size_alloc]
  have hlater : ∀ object, MadeSince before p object → MadeSince before next object := by
    intro object hmade
    refine ⟨hmade.1, ?_⟩
    have hlt := hmade.2
    omega
  have hown : ∀ used, OwnResource before p used → OwnResource before next used :=
    fun used hused => hused.imp_left (hlater used)
  refine ⟨hcatalog.trans h.catalog, ?_, ?_, ?_, ?_, ?_⟩
  · have hle := h.size
    omega
  · intro object hobject hroot
    have hlt : object.index < p.graph.size := Nat.lt_of_lt_of_le hobject h.size
    rw [hgraph, Graph.component?_alloc_of_lt _ _ hlt]
    exact h.untouched hobject hroot
  · intro key used hmem
    rw [hresources] at hmem
    exact hown used (h.resources hmem)
  · intro object key hmem
    rw [hkeys] at hmem
    exact (h.keys hmem).imp_left (hlater object)
  · intro object used c hread hused
    rw [hgraph, Graph.component?_alloc] at hread
    split at hread
    · cases hread
      exact Or.inl (Or.inr ⟨type, state, hcontains, hstate, hused⟩)
    · exact (h.uses hread hused).imp_left (hown used)

end Isolated

/-! ## The five changes -/

/-- A write leaves as many objects as there were. -/
theorem MadeSince.update {before p : Pass} {object : ObjectId} (h : MadeSince before p object)
    (target : ObjectId) (c : Component) : MadeSince before (p.update target c) object := by
  rw [MadeSince, Pass.update, Graph.size_set]
  exact h

/-- **Isolation**, as a promise: what is open was made by the pass or is its root, and what is
inserted or assigned was made by the pass. -/
def isolation (before : Pass) (root : Option ObjectId) : PassInvariant where
  Holds := Isolated before root
  Open p object _ := MadeOrGiven before root p object
  Made := MadeSince before
  resolves {p} tag h :=
    ⟨⟨(p.catalog_resolveTag tag).trans h.catalog, h.size, h.untouched, h.resources, h.keys, h.uses⟩,
      fun _ _ hopen => hopen, fun _ hmade => hmade⟩
  constructs {p resolved tag type object graph} h hresolve hmade := by
    have hcatalog := p.catalog_resolveTag tag
    have hgraph := p.graph_resolveTag tag
    have hcontains : before.resolver.catalog.Contains type :=
      h.catalog ▸ Pass.contains_of_resolveTag hresolve
    have hresources : (p.resolveTag tag).2.resources = p.resources := rfl
    have hkeys := p.keys_resolveTag tag
    rw [hresolve] at hcatalog hgraph hresources hkeys
    obtain ⟨state, hstate, halloc⟩ := construct_eq_ok hmade
    rw [hgraph] at halloc
    cases halloc
    have hsize := Graph.size_alloc p.graph { state with type := type }
    have hlater : ∀ o : ObjectId, MadeSince before p o → before.graph.size ≤ o.index ∧
        o.index < (p.graph.alloc { state with type := type }).2.size := by
      intro o ho
      have hlt := ho.2
      exact ⟨ho.1, by omega⟩
    have hnew : before.graph.size ≤ p.graph.size ∧
        p.graph.size < (p.graph.alloc { state with type := type }).2.size :=
      ⟨h.size, by omega⟩
    have hholds : Isolated before root
        { resolved with graph := (p.graph.alloc { state with type := type }).2 } :=
      h.alloc hcontains hstate hcatalog rfl hresources hkeys
    exact ⟨⟨hholds, fun o _ ho => ho.imp_left (hlater o), hlater⟩, Or.inl hnew, hnew⟩
  assigns {p next object type name raw} h hopen hraw hassign := by
    have hlater : ∀ c (o : ObjectId), MadeOrGiven before root p o →
        MadeOrGiven before root (p.update object c) o :=
          fun c o ho => ho.imp_left (·.update object c)
    cases Pass.assigned_of_assign hassign with
    | shared container entries _ hcontainer hentries =>
      -- the container was made by the pass, so what it holds is the pass's own
      have hmade := hraw container hcontainer
      obtain ⟨c, hread, hown⟩ := Option.bind_eq_some_iff.1 hentries
      refine ⟨h.share _ fun key used hmem => ?_, fun _ _ ho => ho, fun _ ho => ho⟩
      rcases OrderedMap.mem_insertAll hmem with hnew | hold
      · exact h.ownResource_of_uses hmade hread (Or.inr ⟨_, key, hown, hnew⟩)
      · exact h.resources hold
    | dangling => exact ⟨h, fun _ _ ho => ho, fun _ ho => ho⟩
    | bound c store property binding text _ _ _ _ hbinding hread hstore =>
      refine ⟨h.write hopen hread fun used hused => ?_, fun o _ => hlater _ o,
        fun _ ho => ho.update _ _⟩
      rcases hused with ⟨written, key, bound, hwritten, hmem, hconverter⟩ | hentry
      · cases hwritten
        rcases OrderedMap.mem_insert hmem with hnew | hold
        · cases hnew
          obtain ⟨name, hresource⟩ := Pass.mem_resources_of_readBinding hbinding hconverter
          exact Or.inr (h.resources hresource)
        · exact Or.inl (Or.inl ⟨store, key, bound, hstore, hold, hconverter⟩)
      · exact Or.inl (Or.inr hentry)
    | managed c store property value _ _ _ _ hread hstore =>
      refine ⟨h.write hopen hread fun used hused => ?_, fun o _ => hlater _ o,
        fun _ ho => ho.update _ _⟩
      rcases hused with ⟨written, key, bound, hwritten, hmem, hconverter⟩ | hentry
      · cases hwritten
        exact Or.inl (Or.inl ⟨store, key, bound, hstore, hmem, hconverter⟩)
      · exact Or.inl (Or.inr hentry)
    | plain c state kind value _ _ _ _ _ hread hwrite =>
      rw [Pass.setPlain_eq_ok hwrite]
      exact ⟨h.write hopen hread fun used hused => Or.inl hused, fun o _ => hlater _ o,
        fun _ ho => ho.update _ _⟩
  declares key h hopen := ⟨h.declareKey hopen key, fun _ _ ho => ho, fun _ ho => ho⟩
  inserts {p object child type} h hopen hchild := by
    have hinserted := p.inserted_insertChild object type child
    generalize p.insertChild object type child = outcome at hinserted
    have hlater : ∀ c (o : ObjectId), MadeOrGiven before root p o →
        MadeOrGiven before root (p.update object c) o :=
          fun c o ho => ho.imp_left (·.update object c)
    cases hinserted with
    | item c items _ hread _ =>
      exact ⟨h.write hopen hread fun used hused => Or.inl hused, fun o _ => hlater _ o,
        fun _ ho => ho.update _ _⟩
    | entry c entries key resources _ _ hread hentries hresources =>
      -- the child is its parent's new entry and a new resource
      have hfilled : Isolated before root
          (p.update object { c with entries := some (entries.insert key child) }) := by
        apply h.write hopen hread
        intro used hused
        rcases hused with hbinding | ⟨written, name, hwritten, hmem⟩
        · exact Or.inl (Or.inl hbinding)
        · cases hwritten
          rcases OrderedMap.mem_insert hmem with hnew | hold
          · cases hnew
            exact Or.inr (Or.inl hchild)
          · exact Or.inl (Or.inr ⟨entries, name, hentries, hold⟩)
      have hholds := (hfilled.share resources fun name used hmem => by
        rw [hresources] at hmem
        rcases OrderedMap.mem_insert hmem with hnew | hold
        · cases hnew
          exact Or.inl (hchild.update _ _)
        · exact hfilled.resources hold).eraseKey child
      exact ⟨hholds, fun o _ => hlater _ o, fun _ ho => ho.update _ _⟩
    | refused _ keys hkeys =>
      rcases hkeys with rfl | rfl
      · exact ⟨h, fun _ _ ho => ho, fun _ ho => ho⟩
      · exact ⟨h.eraseKey child, fun _ _ ho => ho, fun _ ho => ho⟩

/-- A pass that has read nothing yet is isolated. -/
theorem Isolated.start (g : Graph) (resolver : Resolver) (root : Option ObjectId) :
    Isolated (.start g resolver) root (.start g resolver) where
  catalog := rfl
  size := Nat.le_refl _
  untouched _ _ := rfl
  resources hmem := by cases hmem
  keys hmem := by cases hmem
  uses {object used c} hread hused := Or.inr ⟨c, hread, hused⟩

theorem isolated_assemble (position : Nat → Option Position) (g : Graph) (resolver : Resolver)
    (root : Option ObjectId) (feed : NodeFeed) :
    Isolated (.start g resolver) root
      (assemble position (.start g resolver) (.prolog root) feed).2 := by
  have hgiven : ∀ given, root = some given → ∀ tag, rootTag? feed = some tag → ∀ type resolved,
      (Pass.start g resolver).resolveTag tag = (.ok type, resolved) →
        MadeOrGiven (.start g resolver) root resolved given :=
    fun given hgiven _ _ _ _ _ => Or.inr hgiven
  have hrun := PassInvariant.assemble (I := isolation (.start g resolver) root) position feed
    (Isolated.start g resolver root) hgiven
  exact hrun.holds

/-! ## Whole passes -/

/-- What a pass into `root` over the graph `g` does to it: no object goes away; every object that
was there, apart from the root, is as it was; and the converters and entries that an object has now,
and did not have before, are objects that the pass made. Some may have come with new objects, from
their constructors. -/
structure OnlyOwn (g : Graph) (catalog : Catalog) (root : Option ObjectId) (after : Graph) :
    Prop where
  size : g.size ≤ after.size
  untouched (object : ObjectId) : object.index < g.size → root ≠ some object →
    after.component? object = g.component? object
  uses (object used : ObjectId) (c : Component) : after.component? object = some c →
    c.UsesResource used → (g.size ≤ used.index ∧ used.index < after.size) ∨ catalog.Supplies used ∨
      ∃ old, g.component? object = some old ∧ old.UsesResource used

/-- What a pass into `root` over the graph `g` has in its tables: resources that it declared, or
that came with the objects that it made, and keys that were declared on these objects or on its
root. -/
structure OwnTables (g : Graph) (catalog : Catalog) (root : Option ObjectId) (p : Pass) : Prop where
  resources (key : String) (used : ObjectId) : p.resources.get? key = some used →
    (g.size ≤ used.index ∧ used.index < p.graph.size) ∨ catalog.Supplies used
  keys (object : ObjectId) (key : String) : p.keys.key? object = some key →
    (g.size ≤ object.index ∧ object.index < p.graph.size) ∨ root = some object

theorem mem_of_lookup {entries : List (ObjectId × String)} {object : ObjectId} {key : String}
    (h : entries.lookup object = some key) : (object, key) ∈ entries := by
  induction entries with
  | nil => cases h
  | cons entry rest ih =>
    obtain ⟨other, declared⟩ := entry
    rw [List.lookup_cons] at h
    split at h
    · next hother =>
      cases h
      rw [eq_of_beq hother]
      exact List.mem_cons_self
    · exact List.mem_cons_of_mem _ (ih h)

theorem Isolated.onlyOwn {g : Graph} {resolver : Resolver} {root : Option ObjectId} {p : Pass}
    (h : Isolated (.start g resolver) root p) : OnlyOwn g resolver.catalog root p.graph where
  size := h.size
  untouched _ hobject hroot := h.untouched hobject hroot
  uses _ _ _ hread hused := by
    rcases h.uses hread hused with (hmade | hsupplied) | hold
    · exact Or.inl hmade
    · exact Or.inr (Or.inl hsupplied)
    · exact Or.inr (Or.inr hold)

theorem onlyOwn_refl (g : Graph) (catalog : Catalog) (root : Option ObjectId) :
    OnlyOwn g catalog root g where
  size := Nat.le_refl _
  untouched _ _ _ := rfl
  uses _ _ c hread hused := Or.inr (Or.inr ⟨c, hread, hused⟩)

/-- **A pass touches nothing but its own root and its own objects**, and sees no resource or key of
another pass. This holds of each load and of each reading of a type's markup, whatever comes of it;
and at every moment of a pass, that is, behind any nodes that it may have taken, its tables hold its
own declarations. -/
theorem load_touches_own (g : Graph) (catalog : Catalog) (root : Option ObjectId) :
    (∀ localModule text, OnlyOwn g catalog root
      (LoadRequest.load ⟨g, catalog, localModule, root⟩ text).2) ∧
      (∀ type, OnlyOwn g catalog root (hydrate g catalog root type).graph) ∧
      ∀ localModule position nodes, OwnTables g catalog root
        (assemble position (.start g (.ofCatalog catalog localModule)) (.prolog root) nodes).2 := by
  have hload : ∀ localModule text,
      OnlyOwn g catalog root (LoadRequest.load ⟨g, catalog, localModule, root⟩ text).2 := by
    intro localModule text
    have hrun := isolated_assemble (Position.ofOffset? text.toList) g
      (.ofCatalog catalog localModule) root (NodeFeed.ofText text.toList)
    exact hrun.onlyOwn
  refine ⟨hload, ?_, ?_⟩
  · intro type
    unfold hydrate
    rcases catalog.markupOf type with ⟨fault | text, warnings⟩
    · exact onlyOwn_refl g catalog root
    · exact hload (some type.moduleName) text
  · intro localModule position nodes
    have hrun := isolated_assemble position g (.ofCatalog catalog localModule) root nodes
    constructor
    · intro key used hused
      exact hrun.resources (OrderedMap.mem_of_get? hused)
    · intro object key hkey
      exact hrun.keys (mem_of_lookup hkey)

end Hydration

end MarkupForms
