import MarkupForms.Proofs.Hydration.Unbroken
import MarkupForms.Proofs.Hydration.Resolver
import MarkupForms.Proofs.Types.Consistency
import MarkupForms.Showcase.Types

/-!
# More modules change nothing

A module joins the catalogue behind the others and under a new name, so whatever was found before is
found again: a catalogue is extended, never altered. A tag that named a type names the same type, a
type that had markup has the same markup, and a document that could be read is read into the same
graph.

What was refused may be accepted afterwards, for instance a tag of the module that has been added.
-/

namespace MarkupForms

namespace Catalog

/-- Every module is found under its name as before. -/
def Extends (next catalog : Catalog) : Prop :=
  ∀ name m, catalog.module? name = some m → next.module? name = some m

/-- **One registration** extends the catalogue. -/
theorem extends_register {catalog next : Catalog} {m : TypeModule}
    (h : catalog.register m = .ok next) :
    next.Extends catalog := by
  rcases catalog.register_cases m with ⟨-, hregister⟩ |
    ⟨hnew, ⟨-, hregister⟩ | ⟨error, -, hregister⟩⟩
  · rw [hregister] at h
    cases h
  · rw [hregister] at h
    cases h
    intro name old hfound
    -- the name is taken by a module of the catalogue, so it is not that of the new one
    have hname : name ≠ m.name := by
      rintro rfl
      exact hnew old (List.mem_of_find?_eq_some hfound) (by simpa using List.find?_some hfound)
    rw [module?_append_of_ne _ hname]
    exact hfound
  · rw [hregister] at h
    cases h

section Extension

variable {catalog next : Catalog}

theorem Extends.lookup (h : next.Extends catalog) {moduleName namespaceName name : String}
    {type : TypeInfo} (hfound : catalog.lookup moduleName namespaceName name = some type) :
    next.lookup moduleName namespaceName name = some type := by
  obtain ⟨m, hmodule, htype⟩ := Option.bind_eq_some_iff.1 hfound
  exact Option.bind_eq_some_iff.2 ⟨m, h moduleName m hmodule, htype⟩

/-- The markup of a type is looked for in its own module only. -/
theorem Extends.markupOf (h : next.Extends catalog) {type : TypeInfo} {text : String}
    (hfound : (catalog.markupOf type).1 = .ok text) :
    next.markupOf type = catalog.markupOf type := by
  unfold Catalog.markupOf at hfound ⊢
  cases hmodule : catalog.module? type.moduleName with
  | none =>
    rw [hmodule] at hfound
    cases hfound
  | some m => rw [h type.moduleName m hmodule]

end Extension

end Catalog

namespace Hydration

open Markup

section Extension

variable {catalog next : Catalog}

namespace Resolver

theorem declaration_extended (r : Resolver) (next : Catalog) (uri : String) :
    ({ r with catalog := next } : Resolver).declaration uri =
      ((r.declaration uri).1, { (r.declaration uri).2 with catalog := next }) := by
  unfold Resolver.declaration
  dsimp only
  cases r.declarations.get? uri with
  | some decl => rfl
  | none =>
    cases Declaration.parse uri with
    | error fault => rfl
    | ok decl => rfl

theorem findDeclared_extended (h : next.Extends catalog) {localModule : Option String}
    {uri name : String} {decl : Declaration} {type : TypeInfo}
    (hfound : findDeclared catalog localModule uri name decl = .ok type) :
    findDeclared next localModule uri name decl = .ok type := by
  unfold findDeclared at hfound ⊢
  split at hfound
  · cases hfound
  · cases hfound
  · next namespaceName moduleName hnamespace hmoduleName =>
    cases hmodule : catalog.module? moduleName with
    | none =>
      rw [hmodule] at hfound
      cases hfound
    | some m =>
      rw [hmodule] at hfound
      rw [h moduleName m hmodule]
      exact hfound

/-- What an element names is found again, and the declarations that are remembered are the same. -/
theorem resolve_extended (r : Resolver) (h : next.Extends r.catalog) {uri element : String}
    {type : TypeInfo} (hok : (r.resolve uri element).1 = .ok type) :
    ({ r with catalog := next } : Resolver).resolve uri element =
      (.ok type, { (r.resolve uri element).2 with catalog := next }) := by
  unfold Resolver.resolve at hok ⊢
  dsimp only at hok ⊢
  by_cases hframework : isFramework uri = true
  · rw [if_pos hframework] at hok ⊢
    rw [if_pos hframework]
    cases hfound : r.catalog.lookup Forms.moduleName Forms.moduleName (baseName element) with
    | none =>
      rw [hfound] at hok
      cases hok
    | some found =>
      rw [hfound] at hok
      cases hok
      rw [h.lookup hfound]
  · rw [if_neg hframework] at hok ⊢
    rw [if_neg hframework, r.declaration_extended next uri]
    rcases hdeclaration : r.declaration uri with ⟨fault | decl, read⟩
    · rw [hdeclaration] at hok
      cases hok
    · rw [hdeclaration] at hok
      dsimp only at hok ⊢
      rw [findDeclared_extended h hok]

end Resolver

/-- Passes over a catalogue and over one that extends it: what the first finds, the second has to
find. -/
def extension (h : next.Extends catalog) : Comparison where
  Resolvers r s := r.catalog = catalog ∧ s = { r with catalog := next }
  Lenient := True
  Apart := False
  resolves := by
    rintro r s uri name type ⟨rfl, rfl⟩ hok
    rw [r.resolve_extended h hok]
    exact ⟨rfl, r.catalog_resolve uri name, rfl⟩
  refuses _ _ := Or.inl trivial

/-- A document that could be read is read into the same graph. -/
theorem load_extended (h : next.Extends catalog) {graph after : Graph} {localModule : Option String}
    {root : Option ObjectId} {text : String} {object : ObjectId}
    (hload : LoadRequest.load ⟨graph, catalog, localModule, root⟩ text = (.ok object, after)) :
    LoadRequest.load ⟨graph, next, localModule, root⟩ text = (.ok object, after) := by
  obtain ⟨first, second, hfollows, hfirst, hsecond⟩ :=
    (extension h).load ⟨graph, catalog, localModule, root⟩ ⟨graph, next, localModule,
      root⟩ rfl rfl ⟨rfl, rfl⟩ (.refl (NodeFeed.ofText text.toList)) (Or.inr rfl)
  rw [hfirst, Prod.mk.injEq] at hload
  obtain ⟨hok, rfl⟩ := hload
  obtain ⟨hsame, hgraph⟩ := hfollows.eq_ok id hok
  rw [hsecond, hsame, hgraph]

theorem hydrate_extended (h : next.Extends catalog) {graph : Graph} {root : Option ObjectId}
    {type : TypeInfo} {object : ObjectId}
    (hhydrate : (hydrate graph catalog root type).root = .ok object) :
    hydrate graph next root type = hydrate graph catalog root type := by
  unfold hydrate at hhydrate ⊢
  rcases hmarkup : catalog.markupOf type with ⟨fault | text, warnings⟩
  · rw [hmarkup] at hhydrate
    cases hhydrate
  · have hfound : (catalog.markupOf type).1 = .ok text := congrArg Prod.fst hmarkup
    rw [h.markupOf hfound, hmarkup]
    rw [hmarkup] at hhydrate
    dsimp only at hhydrate ⊢
    rcases hload : LoadRequest.load ⟨graph, catalog, some type.moduleName, root⟩ text with
      ⟨loaded, after⟩
    rw [hload] at hhydrate
    have hok : loaded = .ok object := hhydrate
    subst hok
    rw [load_extended h hload]

/-- **Registering a module changes nothing that worked.** If a module is registered, then every
element that named a type, whatever the local module is and whichever declarations have been read,
names the same type afterwards. Every type that had markup has the same markup, with the same
warnings. Every document that could be read into a given root, or into a new one, is read to the
same root and the same graph. And the markup of every type that could be read is read to the same
root and the same graph. -/
theorem register_stable {catalog next : Catalog} {m : TypeModule}
    (h : catalog.register m = .ok next) :
    (∀ localModule declarations uri element type,
        (Resolver.resolve ⟨catalog, localModule, declarations⟩ uri element).1 = .ok type →
        (Resolver.resolve ⟨next, localModule, declarations⟩ uri element).1 = .ok type) ∧
      (∀ type text, (catalog.markupOf type).1 = .ok text →
        next.markupOf type = catalog.markupOf type) ∧
      (∀ graph localModule root text object after,
        LoadRequest.load ⟨graph, catalog, localModule, root⟩ text = (.ok object, after) →
        LoadRequest.load ⟨graph, next, localModule, root⟩ text = (.ok object, after)) ∧
      ∀ graph root type object, (hydrate graph catalog root type).root = .ok object →
        hydrate graph next root type = hydrate graph catalog root type := by
  have hextends : next.Extends catalog := Catalog.extends_register h
  refine ⟨fun localModule declarations uri element type hok => ?_, ?_, ?_, ?_⟩
  · rw [Resolver.resolve_extended ⟨catalog, localModule, declarations⟩ hextends hok]
  · exact fun type text hfound => hextends.markupOf hfound
  · exact fun graph localModule root text object after hload => load_extended hextends hload
  · exact fun graph root type object hhydrate => hydrate_extended hextends hhydrate

end Extension

/-- A page of its own type. -/
def pageType : TypeInfo :=
  .derive ⟨⟨"Pages", 0⟩, "Pages", "Pages", "Page", true, .none, [], some Forms.newContentPage⟩
    (some Forms.contentPage)

/-- The markup of the page. -/
def pageText : String :=
  "<ContentPage xmlns:x='http://schemas.microsoft.com/winfx/2006/xaml' x:Class='Pages.Page'/>"

/-- The catalogue with the framework and the page. -/
def pageCatalog : Catalog :=
  ⟨[Forms.typeModule, ⟨"Pages", [pageType], [⟨"page.xaml", pageText⟩]⟩]⟩

/-- The catalogue to which the showcase has been added. -/
def pageAndShowcase : Catalog :=
  ⟨pageCatalog.modules ++ [Showcase.typeModule]⟩

theorem register_showcase : pageCatalog.register Showcase.typeModule = .ok pageAndShowcase := rfl

theorem resolve_pageType :
    (Resolver.resolve ⟨pageCatalog, some "Pages", .empty⟩ "clr-namespace:Pages" "Page").1 =
      .ok pageType := rfl

theorem markupOf_pageType : pageCatalog.markupOf pageType = (.ok pageText, []) := by
  decide +kernel

theorem pageText_feed : NodeFeed.ofText pageText.toList =
    .node ⟨0, 0⟩
      (.element ⟨⟨"ContentPage", "ContentPage", ""⟩,
        [⟨⟨"xmlns:x", "x", "http://www.w3.org/2000/xmlns/"⟩, metadataNamespace⟩,
          ⟨⟨"x:Class", "Class", metadataNamespace⟩, "Pages.Page"⟩], true⟩)
      (.finished ⟨90, 0⟩) := by
  rw [pageText, String.toList_ofList, NodeFeed.ofText_eq]
  decide +kernel

theorem load_pageText :
    (LoadRequest.load ⟨.empty, pageCatalog, some "Pages", none⟩ pageText).1 = .ok ⟨0⟩ := by
  rw [LoadRequest.load_eq_ok pageText_feed (by decide +kernel) ⟨0⟩ rfl]

theorem hydrate_pageType : (hydrate .empty pageCatalog none pageType).root = .ok ⟨0⟩ := by
  unfold hydrate
  rw [markupOf_pageType]
  exact load_pageText

/-- The page is found, has its markup, and is read as before when the showcase has joined. -/
theorem register_stable_showcase :
    pageCatalog.register Showcase.typeModule = .ok pageAndShowcase ∧
      (Resolver.resolve ⟨pageAndShowcase, some "Pages", .empty⟩ "clr-namespace:Pages" "Page").1 =
        .ok pageType ∧
      pageAndShowcase.markupOf pageType = (.ok pageText, []) ∧
      (LoadRequest.load ⟨.empty, pageAndShowcase, some "Pages", none⟩ pageText).1 = .ok ⟨0⟩ ∧
      (hydrate .empty pageAndShowcase none pageType).root = .ok ⟨0⟩ := by
  obtain ⟨hresolve, hmarkup, hload, hhydrate⟩ := register_stable register_showcase
  refine ⟨register_showcase, hresolve _ _ _ _ _ resolve_pageType, ?_, ?_, ?_⟩
  · rw [hmarkup pageType pageText (congrArg Prod.fst markupOf_pageType), markupOf_pageType]
  · rw [hload _ _ _ _ _ _ (Prod.ext load_pageText rfl)]
  · rw [hhydrate _ _ _ _ hydrate_pageType, hydrate_pageType]

end Hydration

end MarkupForms
