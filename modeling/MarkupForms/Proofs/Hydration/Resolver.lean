import MarkupForms.Hydration.Assembly
import MarkupForms.Proofs.Types.Registration

/-!
# Where a tag leads

A tag leads to a registered type with the name of the element, and looking it up changes nothing but
the declarations that the resolver remembers.
-/

namespace MarkupForms.Hydration

open Markup

namespace Resolver

theorem catalog_declaration (r : Resolver) (uri : String) :
    (r.declaration uri).2.catalog = r.catalog := by
  unfold Resolver.declaration
  split
  · rfl
  · split <;> rfl

theorem catalog_resolve (r : Resolver) (uri element : String) :
    (r.resolve uri element).2.catalog = r.catalog := by
  have hdeclaration := r.catalog_declaration uri
  unfold Resolver.resolve
  dsimp only
  split
  · split <;> rfl
  · split
    · next h => rw [h] at hdeclaration; exact hdeclaration
    · next h => rw [h] at hdeclaration; exact hdeclaration

theorem find_of_findDeclared {catalog : Catalog} {localModule : Option String}
    {uri name : String} {decl : Declaration} {type : TypeInfo}
    (h : findDeclared catalog localModule uri name decl = .ok type) :
    ∃ moduleName namespaceName, catalog.lookup moduleName namespaceName name = some type := by
  unfold findDeclared at h
  split at h
  · cases h
  · cases h
  · next namespaceName moduleName _ _ =>
    refine ⟨moduleName, namespaceName, ?_⟩
    unfold Catalog.lookup
    cases hm : catalog.module? moduleName with
    | none => rw [hm] at h; cases h
    | some m =>
      cases hfind : m.find namespaceName name with
      | none => simp only [hm, hfind] at h; cases h
      | some found =>
        simp only [hm, hfind] at h
        cases h
        exact hfind

/-- The type of an element is registered under the element's name. -/
theorem lookup_of_resolve {r next : Resolver} {uri element : String} {type : TypeInfo}
    (h : r.resolve uri element = (.ok type, next)) :
    ∃ moduleName namespaceName,
      r.catalog.lookup moduleName namespaceName (baseName element) = some type := by
  unfold Resolver.resolve at h
  dsimp only at h
  split at h
  · cases hlookup : r.catalog.lookup Forms.moduleName Forms.moduleName (baseName element) with
    | none => rw [hlookup] at h; cases h
    | some found => rw [hlookup] at h; cases h; exact ⟨_, _, hlookup⟩
  · rcases hdeclaration : r.declaration uri with ⟨fault | decl, after⟩
    · rw [hdeclaration] at h; cases h
    · rw [hdeclaration] at h
      exact find_of_findDeclared (congrArg Prod.fst h)

end Resolver

theorem construct_eq_ok {g graph : Graph} {type : TypeInfo} {object : ObjectId}
    (h : construct g type = .ok (object, graph)) :
    ∃ state, type.constructor = some state ∧
      (object, graph) = g.alloc { state with type := type } := by
  unfold construct Graph.construct at h
  cases hstate : type.constructor with
  | none => rw [hstate] at h; cases h
  | some state => rw [hstate] at h; cases h; exact ⟨state, rfl, rfl⟩

namespace Pass

@[simp] theorem graph_resolveTag (p : Pass) (tag : StartTag) :
    (p.resolveTag tag).2.graph = p.graph :=
  rfl

@[simp] theorem keys_resolveTag (p : Pass) (tag : StartTag) : (p.resolveTag tag).2.keys = p.keys :=
  rfl

@[simp] theorem catalog_resolveTag (p : Pass) (tag : StartTag) :
    (p.resolveTag tag).2.resolver.catalog = p.resolver.catalog :=
  p.resolver.catalog_resolve _ _

theorem contains_of_resolveTag {p resolved : Pass} {tag : StartTag} {type : TypeInfo}
    (h : p.resolveTag tag = (.ok type, resolved)) : p.resolver.catalog.Contains type := by
  rcases hresolve : p.resolver.resolve tag.name.uri tag.name.localName with ⟨result, next⟩
  unfold resolveTag at h
  rw [hresolve] at h
  cases h
  obtain ⟨_, _, hlookup⟩ := Resolver.lookup_of_resolve hresolve
  exact Catalog.contains_of_lookup hlookup

end Pass

end MarkupForms.Hydration
