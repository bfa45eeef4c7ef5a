import MarkupForms.Proofs.Hydration.Assignment
import MarkupForms.Proofs.Hydration.Invariant
import MarkupForms.Proofs.Hydration.Resolver
import MarkupForms.Proofs.Hydration.Unbroken
import MarkupForms.Proofs.Forms.Framework

/-!
# Kind safety over whole runs

However objects come to their values, the values fit: loads of any markup, single assignments and
changes of context, in any order, leave every store with values of the kinds that its object's
properties admit.

An assignment looks its property up under the type that an element declares, while the object may be
of a type derived from it; registration keeps property names apart along an ancestry, so both
lookups find the same descriptor. What the constructors of registered types put into a store is
their own affair; here they are trusted to put nothing unfit there (`Catalog.NewObjectsFit`).
-/

namespace MarkupForms.Hydration

open Markup

/-! ## One pass -/

namespace Pass

/-- What is known of an object that is addressed under `type`: it is there, and of that type or one
derived from it. -/
def Addresses (p : Pass) (object : ObjectId) (type : TypeInfo) : Prop :=
  ∃ c, p.graph.component? object = some c ∧ c.type.Extends type

/-- Writing to an object leaves it, and every other one, of the type it had. -/
theorem Addresses.update {p : Pass} {object : ObjectId} {type : TypeInfo}
    (h : p.Addresses object type) {target : ObjectId} {c next : Component}
    (hread : p.graph.component? target = some c) (htype : next.type = c.type) :
    (p.update target next).Addresses object type := by
  obtain ⟨own, hown, hextends⟩ := h
  by_cases htarget : target = object
  · subst htarget
    rw [hread] at hown
    cases hown
    exact ⟨next, Graph.component?_set_self hread next, htype ▸ hextends⟩
  · exact ⟨own, (Graph.component?_set_of_ne p.graph htarget next).trans hown, hextends⟩

end Pass

section Kinds

variable {catalog : Catalog}

/-- An assignment through a base of a sound object's type leaves every object sound. -/
theorem sound_assign (hdistinct : catalog.DistinctProperties) {p next : Pass} {target : ObjectId}
    {type : TypeInfo} {name : String} {raw : RawValue}
    (hsound : p.graph.All (Component.Sound catalog)) (htarget : p.Addresses target type)
    (h : p.assign target type name raw = .ok next) :
    next.graph.All (Component.Sound catalog) := by
  obtain ⟨c, hread, hextends⟩ := htarget
  have hc := hsound target c hread
  -- the descriptor that the lookup under `type` finds is the one of the object's own type
  have hfound : ∀ property, type.findManaged name = some property →
      c.type.findProperty property.name = some (.managed property) := by
    intro property hfind
    rw [TypeInfo.name_of_findManaged hfind]
    exact TypeInfo.findProperty_of_extends (hdistinct c.type hc.1) hextends
      (TypeInfo.findProperty_of_findManaged hfind)
  cases Pass.assigned_of_assign h with
  | shared => exact hsound
  | dangling => exact hsound
  | bound own store property binding _ _ _ _ hfind _ hown hstore =>
    rw [hread] at hown
    cases hown
    have hbound := (hc.2 store hstore).setBinding binding (hfound property hfind)
    exact hsound.set (hc.withStore hbound) target
  | managed own store property value _ _ hfind hvalue hown hstore =>
    rw [hread] at hown
    cases hown
    have hstored := (hc.2 store hstore).setValue (hfound property hfind) (admits_of_coerce hvalue)
    exact hsound.set (hc.withStore hstored) target
  | plain own state kind value _ _ _ _ _ hown hwrite =>
    rw [hread] at hown
    cases hown
    rw [Pass.setPlain_eq_ok hwrite]
    have hwritten : Component.Sound catalog
        { c with plainValues := c.plainValues.insert name value } := hc
    exact hsound.set hwritten target

/-- An assignment leaves every object of the type it had. -/
theorem Pass.Addresses.assign {p next : Pass} {object target : ObjectId} {type declared : TypeInfo}
    {name : String} {raw : RawValue} (hopen : p.Addresses object type)
    (h : p.assign target declared name raw = .ok next) : next.Addresses object type := by
  cases Pass.assigned_of_assign h with
  | shared => exact hopen
  | dangling => exact hopen
  | bound c _ _ _ _ _ _ _ _ _ hread _ => exact hopen.update hread rfl
  | managed c _ _ _ _ _ _ _ hread _ => exact hopen.update hread rfl
  | plain c _ _ _ _ _ _ _ _ hread _ => exact hopen.update hread rfl

/-- **What a pass keeps**: all objects are sound, and an open object stays of the type it is open
under. -/
def soundness (hdistinct : catalog.DistinctProperties) (hnew : catalog.NewObjectsFit) :
    PassInvariant where
  Holds p := p.resolver.catalog = catalog ∧ p.graph.All (Component.Sound catalog)
  Open := Pass.Addresses
  Made _ _ := True
  resolves {p} tag h :=
    ⟨⟨(p.catalog_resolveTag tag).trans h.1, h.2⟩, fun _ _ hopen => hopen, fun _ hmade => hmade⟩
  constructs {p resolved tag type object graph} h hresolve hmade := by
    have hresolver := p.catalog_resolveTag tag
    have hgraph := p.graph_resolveTag tag
    rw [hresolve] at hresolver hgraph
    obtain ⟨state, hstate, halloc⟩ := construct_eq_ok hmade
    cases halloc
    have hcontains : catalog.Contains type := h.1 ▸ Pass.contains_of_resolveTag hresolve
    have hobject : Component.Sound catalog { state with type := type } :=
      ⟨hcontains, hnew type state hcontains hstate⟩
    rw [hgraph]
    refine ⟨⟨⟨hresolver.trans h.1, h.2.alloc hobject⟩, ?_, fun _ _ => trivial⟩, ?_, trivial⟩
    · rintro o t ⟨own, hown, hextends⟩
      refine ⟨own, ?_, hextends⟩
      exact (Graph.component?_alloc_of_lt _ _ (Graph.index_lt_size hown)).trans hown
    · exact ⟨_, Graph.component?_alloc_new _ _, TypeInfo.Extends.refl type⟩
  assigns {p next object type name raw} h hopen _ hassign := by
    refine ⟨⟨?_, sound_assign hdistinct h.2 hopen hassign⟩, fun o t ho => ho.assign hassign,
      fun _ _ => trivial⟩
    rw [(Pass.assigned_of_assign hassign).resolver]
    exact h.1
  declares key h _ := ⟨h, fun _ _ hopen => hopen, fun _ _ => trivial⟩
  inserts {p object child type} h hopen _ := by
    have hinserted := p.inserted_insertChild object type child
    generalize p.insertChild object type child = outcome at hinserted
    cases hinserted with
    | item c items _ hread _ =>
      have hc := h.2 object c hread
      have hfilled : Component.Sound catalog { c with items := some (items ++ [child]) } := hc
      exact ⟨⟨h.1, h.2.set hfilled object⟩, fun o t ho => ho.update hread rfl, fun _ _ => trivial⟩
    | entry c entries key _ _ _ hread _ =>
      have hc := h.2 object c hread
      have hfilled : Component.Sound catalog
        { c with entries := some (entries.insert key child) } := hc
      exact ⟨⟨h.1, h.2.set hfilled object⟩,
        fun o t (ho : p.Addresses o t) => ho.update hread rfl, fun _ _ => trivial⟩
    | refused _ _ _ => exact ⟨h, fun _ _ ho => ho, fun _ _ => trivial⟩

end Kinds

/-! ## Runs -/

/-- A new object of a registered type. -/
def Fresh (catalog : Catalog) (c : Component) : Prop :=
  ∃ type state, catalog.Contains type ∧ type.constructor = some state ∧
    c = { state with type := type }

/-- The root that a load is given is an object of the type that the root element names, or of one
derived from it. -/
def GoesWith (request : LoadRequest) (given : ObjectId) (text : String) : Prop :=
  ∀ tag, rootTag? (NodeFeed.ofText text.toList) = some tag → ∀ type resolved,
    request.pass.resolveTag tag = (.ok type, resolved) → resolved.Addresses given type

/-- The graphs that programs come to: from new objects of registered types, by loads of any text,
whatever becomes of them; by single assignments under a type that the object derives from, with any
resources and any local module; and by changes of context. -/
inductive Reached (catalog : Catalog) : Graph → Prop where
  | start {g : Graph} (hfresh : g.All (Fresh catalog)) : Reached catalog g
  | load {g : Graph} (localModule : Option String) (root : Option ObjectId) (text : String)
      (hg : Reached catalog g)
      (hroot : ∀ given, root = some given → GoesWith ⟨g, catalog, localModule, root⟩ given text) :
      Reached catalog (LoadRequest.load ⟨g, catalog, localModule, root⟩ text).2
  | assign {p next : Pass} {target : ObjectId} {type : TypeInfo} {name : String} {raw : RawValue}
      (hp : Reached catalog p.graph) (htarget : p.Addresses target type)
      (hassign : p.assign target type name raw = .ok next) : Reached catalog next.graph
  | setContext {g : Graph} (root : ObjectId) (context : BindingContext) (hg : Reached catalog g) :
      Reached catalog (g.setContext root context).1

theorem Fresh.sound {catalog : Catalog} (hnew : catalog.NewObjectsFit) {c : Component}
    (h : Fresh catalog c) : c.Sound catalog := by
  obtain ⟨type, state, hcontains, hstate, rfl⟩ := h
  exact ⟨hcontains, hnew type state hcontains hstate⟩

/-- A load keeps objects sound, up to the fault at which it may end. -/
theorem sound_load {catalog : Catalog} (hdistinct : catalog.DistinctProperties)
    (hnew : catalog.NewObjectsFit) (request : LoadRequest) (hcatalog : request.catalog = catalog)
    (text : String) (hsound : request.graph.All (Component.Sound catalog))
    (hroot : ∀ given, request.root = some given → GoesWith request given text) :
    (request.load text).2.All (Component.Sound catalog) := by
  have hholds : (soundness hdistinct hnew).Holds request.pass := ⟨hcatalog, hsound⟩
  have hrun := PassInvariant.assemble (Position.ofOffset? text.toList) (NodeFeed.ofText text.toList)
    hholds hroot
  exact hrun.1.2

theorem Reached.sound {catalog : Catalog} (hdistinct : catalog.DistinctProperties)
    (hnew : catalog.NewObjectsFit) {g : Graph} (h : Reached catalog g) :
    g.All (Component.Sound catalog) := by
  induction h with
  | start hfresh => exact fun id c hc => (hfresh id c hc).sound hnew
  | load localModule root text hg hroot ih => exact sound_load hdistinct hnew _ rfl text ih hroot
  | assign hp htarget hassign ih => exact sound_assign hdistinct ih htarget hassign
  | setContext root context hg ih => exact ih.setContext (keptByContext_sound catalog) root context

/-- Reading the markup of a type is a load, or finds no markup and changes nothing. -/
theorem Reached.hydrate {catalog : Catalog} {g : Graph} (hg : Reached catalog g)
    (root : Option ObjectId) (type : TypeInfo)
    (hroot : ∀ text, (catalog.markupOf type).1 = .ok text → ∀ given, root = some given →
      GoesWith ⟨g, catalog, some type.moduleName, root⟩ given text) :
    Reached catalog (Hydration.hydrate g catalog root type).graph := by
  unfold Hydration.hydrate
  rcases hmarkup : catalog.markupOf type with ⟨fault | text, warnings⟩
  · exact hg
  · exact hg.load (some type.moduleName) root text (hroot text (congrArg Prod.fst hmarkup))

/-- **Kind safety over whole runs.** Over a catalogue that was built by successful registrations,
every graph that is reached from new objects is kind-safe: on every object, rows included, each
stored value has a kind that the managed property of its name admits, and each binding is stored
under the name of the descriptor that a lookup by that name finds. -/
theorem kindSafe_of_reached {catalog : Catalog} {modules : List TypeModule}
    (hcatalog : Catalog.empty.registerAll modules = .ok catalog) (hnew : catalog.NewObjectsFit)
    {g : Graph} (h : Reached catalog g) : g.KindSafe :=
  fun id c hc => (h.sound (Catalog.distinctProperties_of_registerAll hcatalog) hnew id c hc).2

/-- A new page. -/
def newPage : Component :=
  { Forms.newContentPage with type := Forms.contentPage }

/-- A new page whose title is bound. -/
def boundPage : Component :=
  { newPage with
    store :=
      some (PropertyStore.empty.setBinding ⟨"Title", "Page", .text⟩ ⟨"Name", none, .default⟩) }

theorem fresh_newPage : Graph.All (Fresh Forms.catalog) ⟨#[newPage]⟩ := by
  intro id c hc
  obtain ⟨index⟩ := id
  have hindex : index = 0 := Nat.lt_one_iff.1 (Graph.index_lt_size hc)
  subst hindex
  cases hc
  refine ⟨Forms.contentPage, Forms.newContentPage, Forms.contains_iff.2 ?_, rfl, rfl⟩
  simp [Forms.types]

set_option maxRecDepth 4000 in
/-- The title is bound through a base of the page's type. -/
theorem assign_newPage :
    (Pass.start ⟨#[newPage]⟩ (.ofCatalog Forms.catalog none)).assign ⟨0⟩ Forms.page "Title"
        (.text "\x7bBinding Name\x7d") =
      .ok (Pass.start ⟨#[boundPage]⟩ (.ofCatalog Forms.catalog none)) := by
  have hparse : Expression.BindingExpr.parse "\x7bBinding Name\x7d" = .ok ⟨"Name", none, none⟩ :=
    rfl
  have htext : Pass.isExpression "\x7bBinding Name\x7d" = true := by cbv
  unfold Pass.assign
  rw [if_neg (by decide)]
  simp only [htext, if_true, Pass.assignBinding, Pass.readBinding, hparse]
  rfl

/-- A page with a bound title is read into from `nestedText`; then it gets a context that the title
is drawn from. -/
theorem kindSafe_boundPage :
    let loaded := (LoadRequest.load ⟨⟨#[boundPage]⟩, Forms.catalog, none, some ⟨0⟩⟩ nestedText).2
    let done := (loaded.setContext ⟨0⟩ (.ofList [("Name", .text "Ann")])).1
    Reached Forms.catalog done ∧ done.KindSafe ∧
      (done.get? ⟨0⟩ "Title").bind Value.asText? = some "Ann" := by
  intro loaded done
  have hbound : Reached Forms.catalog ⟨#[boundPage]⟩ := by
    -- the page's own declaration stands above those of the base
    refine .assign (.start fresh_newPage) ⟨newPage, rfl, ?_⟩ assign_newPage
    exact ⟨[Forms.contentPage.toTypeDecl], rfl⟩
  have hloaded : Reached Forms.catalog loaded := by
    refine .load none (some ⟨0⟩) nestedText hbound fun given hgiven tag htag type resolved h => ?_
    cases hgiven
    rw [nestedText_feed] at htag
    cases htag
    cases h
    exact ⟨boundPage, rfl, TypeInfo.Extends.refl _⟩
  have hdone : Reached Forms.catalog done := hloaded.setContext _ _
  have hcatalog : Catalog.empty.registerAll [Forms.typeModule] = .ok Forms.catalog := by
    rw [Catalog.registerAll, Forms.register_typeModule]
    rfl
  refine ⟨hdone, kindSafe_of_reached hcatalog Forms.newObjectsFit hdone, ?_⟩
  · unfold done loaded
    rw [LoadRequest.load_eq_ok nestedText_feed nestedText_unmarked ⟨0⟩ rfl]
    rfl

end MarkupForms.Hydration
