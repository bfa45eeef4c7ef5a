import MarkupForms.Types.Catalog

/-!
# What registration guarantees

A catalogue that was filled by successful registrations holds only types along whose ancestry no
property name occurs twice. So a property that is found through a base of such a type is the one
that the type itself finds: an object may be addressed under any type it derives from.
-/

namespace MarkupForms

namespace Catalog

/-- The type belongs to a registered module. -/
def Contains (catalog : Catalog) (type : TypeInfo) : Prop :=
  ∃ m ∈ catalog.modules, type ∈ m.types

theorem contains_of_lookup {catalog : Catalog} {moduleName namespaceName name : String}
    {type : TypeInfo} (h : catalog.lookup moduleName namespaceName name = some type) :
    catalog.Contains type := by
  obtain ⟨m, hm, htype⟩ := Option.bind_eq_some_iff.1 h
  exact ⟨m, List.mem_of_find?_eq_some hm, List.mem_of_find?_eq_some htype⟩

/-- Along the ancestry of every registered type, each property name is declared once. -/
def DistinctProperties (catalog : Catalog) : Prop :=
  ∀ type, catalog.Contains type → (type.allProperties.map (·.name)).Nodup

end Catalog

/-! ## Registration -/

theorem nodup_of_checkType {moduleName : String} {seen : List (String × String)} {type : TypeInfo}
    (h : checkType moduleName seen type = none) : (type.allProperties.map (·.name)).Nodup := by
  unfold checkType at h
  split at h
  · cases h
  · split at h
    · cases h
    · rw [Option.map_eq_none_iff, firstRepeated?_eq_none_iff] at h
      exact h.1

theorem nodup_of_checkTypes {moduleName : String} {seen : List (String × String)}
    {types : List TypeInfo} (h : checkTypes moduleName seen types = none) :
    ∀ type ∈ types, (type.allProperties.map (·.name)).Nodup := by
  induction types generalizing seen with
  | nil => intro type hmem; cases hmem
  | cons first types ih =>
    rw [checkTypes] at h
    cases hfirst : checkType moduleName seen first with
    | some error => rw [hfirst] at h; cases h
    | none =>
      rw [hfirst] at h
      intro type hmem
      rcases List.mem_cons.1 hmem with rfl | hmem
      · exact nodup_of_checkType hfirst
      · exact ih h type hmem

namespace Catalog

theorem DistinctProperties.register {catalog next : Catalog} {m : TypeModule}
    (hcatalog : catalog.DistinctProperties) (h : catalog.register m = .ok next) :
    next.DistinctProperties := by
  unfold Catalog.register at h
  split at h
  · cases h
  · cases hcheck : checkTypes m.name [] m.types with
    | some error => rw [hcheck] at h; cases h
    | none =>
      rw [hcheck] at h
      cases h
      rintro type ⟨added, hadded, hmem⟩
      rcases List.mem_append.1 hadded with hold | hnew
      · exact hcatalog type ⟨added, hold, hmem⟩
      · rw [List.mem_singleton] at hnew
        subst hnew
        exact nodup_of_checkTypes hcheck type hmem

theorem DistinctProperties.registerAll {catalog next : Catalog} {modules : List TypeModule}
    (hcatalog : catalog.DistinctProperties) (h : catalog.registerAll modules = .ok next) :
    next.DistinctProperties := by
  induction modules generalizing catalog with
  | nil => cases h; exact hcatalog
  | cons m modules ih =>
    rw [Catalog.registerAll] at h
    cases hfirst : catalog.register m with
    | error error => rw [hfirst] at h; cases h
    | ok between =>
      rw [hfirst] at h
      exact ih (hcatalog.register hfirst) h

/-- **Registration keeps property names apart**, for every catalogue that it builds. -/
theorem distinctProperties_of_registerAll {catalog : Catalog} {modules : List TypeModule}
    (h : empty.registerAll modules = .ok catalog) : catalog.DistinctProperties := by
  refine DistinctProperties.registerAll ?_ h
  rintro type ⟨m, hm, -⟩
  cases hm

end Catalog

/-! ## Bases -/

namespace TypeInfo

/-- `base` is the type itself or one of its bases: it stands in the ancestry, followed by its own
bases. -/
def Extends (type base : TypeInfo) : Prop :=
  base.ancestry <:+ type.ancestry

theorem Extends.refl (type : TypeInfo) : type.Extends type :=
  List.suffix_refl _

/-- Identities find every base. -/
theorem Extends.derivesFrom {type base : TypeInfo} (h : type.Extends base) :
    type.derivesFrom base = true := by
  refine List.any_eq_true.2 ⟨base.toTypeDecl, ?_, by simp⟩
  exact h.subset List.mem_cons_self

theorem allProperties_suffix {type base : TypeInfo} (h : type.Extends base) :
    base.allProperties <:+ type.allProperties := by
  obtain ⟨above, hsplit⟩ := h
  refine ⟨above.flatMap (·.properties), ?_⟩
  rw [allProperties, allProperties, ← hsplit, List.flatMap_append]

/-- **A base finds the same properties**: what a lookup under a base finds is what the type finds,
for a type along whose ancestry property names are distinct. -/
theorem findProperty_of_extends {type base : TypeInfo} {name : String} {property : PropertyInfo}
    (hnodup : (type.allProperties.map (·.name)).Nodup) (h : type.Extends base)
    (hfind : base.findProperty name = some property) : type.findProperty name = some property := by
  obtain ⟨nearer, hsplit⟩ := allProperties_suffix h
  rw [findProperty, ← hsplit, List.find?_append]
  have hnone : nearer.find? (·.name == name) = none := by
    rw [List.find?_eq_none]
    intro other hother heq
    rw [← hsplit, List.map_append, List.nodup_append] at hnodup
    -- a nearer property of the name would stand beside the one that the base finds
    have hproperty : property.name = name := by simpa using List.find?_some hfind
    have hmem : property ∈ base.allProperties := List.mem_of_find?_eq_some hfind
    refine hnodup.2.2 other.name (List.mem_map_of_mem hother) property.name
      (List.mem_map_of_mem hmem) ?_
    rw [hproperty]
    simpa using heq
  rw [hnone]
  exact hfind

theorem findProperty_of_findManaged {type : TypeInfo} {name : String} {property : ManagedProperty}
    (h : type.findManaged name = some property) :
    type.findProperty name = some (.managed property) := by
  unfold findManaged at h
  split at h
  · obtain ⟨info, hinfo, hmanaged⟩ := Option.bind_eq_some_iff.1 h
    cases info with
    | managed declared => cases hmanaged; exact hinfo
    | plain _ _ => cases hmanaged
  · cases h

theorem name_of_findManaged {type : TypeInfo} {name : String} {property : ManagedProperty}
    (h : type.findManaged name = some property) : property.name = name := by
  have hfind := List.find?_some (findProperty_of_findManaged h)
  simpa [PropertyInfo.name] using hfind

end TypeInfo

end MarkupForms
