import Mathlib.Data.List.Nodup
import MarkupForms.Proofs.Types.Consistency

/-!
# Where the names of declared properties lead

Along the ancestry of a registered type no property name occurs twice, so a declared property is the
only one that a search can find under its name. Whether a managed one is found depends on the type
besides: one that takes no part in the managed-property system finds no descriptors, whatever it or
its bases declare, and registration does not mind. A plain property is always found, and a name that
is nowhere declared never leads anywhere.
-/

namespace MarkupForms

/-- The name of a declared property leads to it and to nothing else: a managed property is found as
its descriptor and not as a plain one, a plain property as its kind and not as a managed one. -/
def TypeInfo.ResolvesTo (type : TypeInfo) : PropertyInfo → Prop
  | .managed property => type.findManaged property.name = some property ∧
  type.findPlain property.name = none
  | .plain name kind => type.findManaged name = none ∧ type.findPlain name = some kind

/-- Neither lookup finds anything under the name. -/
def TypeInfo.Misses (type : TypeInfo) (name : String) : Prop :=
  type.findManaged name = none ∧ type.findPlain name = none

namespace PropertyInfo

theorem name_of_plainKind? {info : PropertyInfo} {name : String} {kind : ValueKind}
    (h : info.plainKind? name = some kind) : info = .plain name kind := by
  cases info with
  | managed property => cases h
  | plain declared declaredKind =>
    rw [plainKind?] at h
    by_cases hname : declared = name
    · rw [if_pos hname] at h
      cases h
      rw [hname]
    · rw [if_neg hname] at h
      cases h

theorem plainKind?_self (name : String) (kind : ValueKind) :
    (PropertyInfo.plain name kind).plainKind? name = some kind :=
  if_pos rfl

end PropertyInfo

/-! ## Searches along the ancestry -/

section Search

variable {type : TypeInfo} {info : PropertyInfo} {name : String}

/-- A declared property is the one that is found under its name. -/
theorem findProperty_of_mem (hnodup : (type.allProperties.map (·.name)).Nodup)
    (hmem : info ∈ type.allProperties) :
    type.findProperty info.name = some info := by
  have hfound : (type.findProperty info.name).isSome = true :=
    List.find?_isSome.2 ⟨info, hmem, beq_self_eq_true info.name⟩
  obtain ⟨found, hfind⟩ := Option.isSome_iff_exists.1 hfound
  have hname : found.name = info.name := by simpa using List.find?_some hfind
  have hsame : found = info :=
    List.inj_on_of_nodup_map hnodup (List.mem_of_find?_eq_some hfind) hmem hname
  rw [hfind, hsame]

/-- What is found as a plain property is declared as one. -/
theorem mem_of_findPlain {kind : ValueKind} (h : type.findPlain name = some kind) :
    .plain name kind ∈ type.allProperties := by
  obtain ⟨found, hmem, hkind⟩ := List.exists_of_findSome?_eq_some h
  rw [PropertyInfo.name_of_plainKind? hkind] at hmem
  exact hmem

theorem misses_of_undeclared (h : ∀ info ∈ type.allProperties, info.name ≠ name) :
    type.Misses name := by
  constructor
  · have hnone : type.findProperty name = none :=
      List.find?_eq_none.2 fun info hmem hname => h info hmem (by simpa using hname)
    unfold TypeInfo.findManaged
    rw [hnone]
    exact ite_self none
  · cases hplain : type.findPlain name with
    | none => rfl
    | some kind => exact absurd rfl (h _ (mem_of_findPlain hplain))

/-- No other property stands under the name of a managed one. -/
theorem findPlain_of_managed {property : ManagedProperty}
    (hnodup : (type.allProperties.map (·.name)).Nodup)
    (hmem : .managed property ∈ type.allProperties) : type.findPlain property.name = none := by
  cases hplain : type.findPlain property.name with
  | none => rfl
  | some kind =>
    have hsame := List.inj_on_of_nodup_map hnodup (mem_of_findPlain hplain) hmem rfl
    cases hsame

theorem findPlain_of_plain {kind : ValueKind} (hnodup : (type.allProperties.map (·.name)).Nodup)
    (hmem : .plain name kind ∈ type.allProperties) : type.findPlain name = some kind := by
  have hfound : (type.findPlain name).isSome = true :=
    List.findSome?_isSome_iff.2 ⟨_, hmem, by rw [PropertyInfo.plainKind?_self]; rfl⟩
  obtain ⟨found, hfind⟩ := Option.isSome_iff_exists.1 hfound
  have hsame := List.inj_on_of_nodup_map hnodup (mem_of_findPlain hfind) hmem rfl
  cases hsame
  exact hfind

/-- Where the name of one declared property leads. -/
theorem resolvesTo_or_misses (hnodup : (type.allProperties.map (·.name)).Nodup)
    (hmem : info ∈ type.allProperties) :
    (info.isManaged = true → type.managed = true) ∧ type.ResolvesTo info ∨
      (info.isManaged = true ∧ type.managed = false) ∧ type.Misses info.name := by
  have hfind := findProperty_of_mem hnodup hmem
  cases info with
  | managed property =>
    have hplain := findPlain_of_managed hnodup hmem
    replace hfind : type.findProperty property.name = some (.managed property) := hfind
    cases htakesPart : type.managed with
    | true =>
      refine Or.inl ⟨fun _ => rfl, ?_, hplain⟩
      rw [TypeInfo.findManaged, htakesPart, if_pos rfl, hfind]
      rfl
    | false =>
      refine Or.inr ⟨⟨rfl, rfl⟩, ?_, hplain⟩
      rw [TypeInfo.findManaged, htakesPart, if_neg Bool.false_ne_true]
  | plain name kind =>
    replace hfind : type.findProperty name = some (.plain name kind) := hfind
    refine Or.inl ⟨nofun, ?_, findPlain_of_plain hnodup hmem⟩
    rw [TypeInfo.findManaged, hfind]
    exact ite_self none

theorem TypeInfo.ResolvesTo.not_misses (h : type.ResolvesTo info) : ¬ type.Misses info.name := by
  rintro ⟨hmanaged, hplain⟩
  cases info with
  | managed property => cases h.1.symm.trans hmanaged
  | plain name kind => cases h.2.symm.trans hplain

end Search

/-! ## Registered types -/

namespace Catalog

/-- **Where declared names lead.** Take any type of any catalogue that calls of `register` lead to.
The name of each property that the type or one of its bases declares leads to that property and to
nothing else, exactly if the property is a plain one or the type takes part in the managed-property
system; else neither lookup finds anything. Nor does it under a name that is not declared along the
ancestry. -/
theorem resolves_iff {catalog : Catalog} (h : catalog.Reached) {type : TypeInfo}
    (hcontains : catalog.Contains type) :
    (∀ decl ∈ type.ancestry, ∀ info ∈ decl.properties,
        (type.ResolvesTo info ↔ (info.isManaged = true → type.managed = true)) ∧
          (¬ type.ResolvesTo info → type.Misses info.name)) ∧
      ∀ name, (∀ decl ∈ type.ancestry, ∀ info ∈ decl.properties, info.name ≠ name) →
      type.Misses name := by
  obtain ⟨m, hm, htype⟩ := hcontains
  have hnodup := (h.consistent.sound m hm).properties type htype
  constructor
  · intro decl hdecl info hinfo
    have hmem : info ∈ type.allProperties := List.mem_flatMap.2 ⟨decl, hdecl, hinfo⟩
    rcases resolvesTo_or_misses hnodup hmem with ⟨hfits, hresolves⟩ | ⟨⟨hmanaged, hout⟩, hmisses⟩
    · exact ⟨⟨fun _ => hfits, fun _ => hresolves⟩, fun hnot => absurd hresolves hnot⟩
    · refine ⟨⟨fun hresolves => absurd hmisses hresolves.not_misses, fun hfits => ?_⟩,
        fun _ => hmisses⟩
      rw [hfits hmanaged] at hout
      cases hout
  · intro name hname
    apply misses_of_undeclared
    intro info hmem
    obtain ⟨decl, hdecl, hinfo⟩ := List.mem_flatMap.1 hmem
    exact hname decl hdecl info hinfo

/-- A type that derives from the framework's views and declares a managed property of its own, but
takes no part in the managed-property system. -/
def gaugeType : TypeInfo :=
  .derive ⟨⟨"Test", 0⟩, "Test", "Test", "Gauge", false, .none,
    [.managed ⟨"Level", "Gauge", .int⟩], none⟩ (some Forms.viewType)

/-- The module of `gaugeType`. -/
def gaugeModule : TypeModule :=
  ⟨"Test", [gaugeType], []⟩

theorem contains_gaugeType : (Forms.catalog.call gaugeModule).2.Contains gaugeType := by
  have hregister : Forms.catalog.call gaugeModule =
    (.ok (), ⟨[Forms.typeModule, gaugeModule]⟩) := by rfl
  rw [hregister]
  exact ⟨gaugeModule, by simp, List.mem_singleton_self _⟩

/-- The gauge is registered. Its id, a plain property of views, is found; its level is not, nor is
the opacity of views. -/
theorem resolves_iff_gaugeType :
    (Forms.catalog.call gaugeModule).2.Reached ∧
    (Forms.catalog.call gaugeModule).2.Contains gaugeType ∧
      gaugeType.ResolvesTo (.plain "Id" .text) ∧ gaugeType.Misses "Level" ∧
      gaugeType.Misses "Opacity" ∧
        gaugeType.Misses "Title" := by
  have hreached : (Forms.catalog.call gaugeModule).2.Reached := .call gaugeModule .framework
  obtain ⟨hdeclared, hundeclared⟩ := resolves_iff hreached contains_gaugeType
  have hown : gaugeType.toTypeDecl ∈ gaugeType.ancestry := List.mem_cons_self
  have hview : Forms.viewType.toTypeDecl ∈ gaugeType.ancestry :=
    List.mem_cons_of_mem _ List.mem_cons_self
  have hlevel := hdeclared _ hown (.managed ⟨"Level", "Gauge", .int⟩) (List.mem_singleton_self _)
  have hopacity := hdeclared _ hview (.managed ⟨"Opacity", "View", .float⟩)
    (List.mem_cons_of_mem _ List.mem_cons_self)
  have hid := hdeclared _ hview (.plain "Id" .text)
    (List.mem_cons_of_mem _ (List.mem_cons_of_mem _ List.mem_cons_self))
  have hout : ¬ (true = true → gaugeType.managed = true) := by decide
  refine ⟨hreached, contains_gaugeType, hid.1.2 nofun, hlevel.2 (mt hlevel.1.1 hout),
    hopacity.2 (mt hopacity.1.1 hout), hundeclared "Title" ?_⟩
  decide

/-- Registration does not see to it that every declared property is found. -/
theorem not_every_property_resolves :
    ¬ ∀ (catalog : Catalog) (type : TypeInfo), catalog.Reached → catalog.Contains type →
      ∀ decl ∈ type.ancestry, ∀ info ∈ decl.properties, type.ResolvesTo info := by
  intro law
  have hresolves :=
    law _ gaugeType (.call gaugeModule .framework) contains_gaugeType gaugeType.toTypeDecl
    List.mem_cons_self (.managed ⟨"Level", "Gauge", .int⟩) (List.mem_singleton_self _)
  exact absurd hresolves.1 (by decide)

end Catalog

end MarkupForms
