import Mathlib.Data.List.Duplicate
import MarkupForms.Forms.Framework
import MarkupForms.Proofs.Types.Registration

/-!
# Catalogues stay consistent

A module is accepted exactly if its name is new and nothing is wrong with it (`TypeModule.Sound`),
and it is refused only for something that is wrong (`Objection`). So every catalogue that calls of
`register` can lead to, refused ones included, is consistent: a module stands under its own name,
and all modules are sound.
-/

namespace MarkupForms

/-! ## Modules -/

/-- Nothing is wrong with the module: its types declare it, no two of them have one namespace and
name, and no property name occurs twice along the ancestry of any, wherever its bases are
registered. -/
structure TypeModule.Sound (m : TypeModule) : Prop where
  declared (type : TypeInfo) : type ∈ m.types → type.moduleName = m.name
  names : (m.types.map fun type => (type.namespaceName, type.name)).Nodup
  properties (type : TypeInfo) : type ∈ m.types → (type.allProperties.map (·.name)).Nodup

/-- Something is wrong with the module, and this is the error that says so. -/
inductive Objection (m : TypeModule) : CatalogError → Prop
  | declared {type : TypeInfo} (hmem : type ∈ m.types) (hother : type.moduleName ≠ m.name) :
      Objection m (.moduleMismatch type.name type.moduleName m.name)
  | names {namespaceName name : String}
      (htwice : List.Duplicate (namespaceName, name)
        (m.types.map fun type => (type.namespaceName, type.name))) :
      Objection m (.duplicateType m.name namespaceName name)
  | properties {type : TypeInfo} {name : String} (hmem : type ∈ m.types)
      (htwice : List.Duplicate name (type.allProperties.map (·.name))) :
      Objection m (.duplicateProperty type.name name)

theorem Objection.not_sound {m : TypeModule} {error : CatalogError} (h : Objection m error) :
    ¬ m.Sound := by
  intro hsound
  cases h with
  | declared hmem hother => exact hother (hsound.declared _ hmem)
  | names htwice => exact htwice.not_nodup hsound.names
  | properties hmem htwice => exact htwice.not_nodup (hsound.properties _ hmem)

/-! ## The checks -/

theorem of_firstRepeated?_eq_some {α : Type} [DecidableEq α] {seen rest : List α} {x : α}
    (h : firstRepeated? seen rest = some x) : x ∈ seen ∧ x ∈ rest ∨ List.Duplicate x rest := by
  induction rest generalizing seen with
  | nil => cases h
  | cons first rest ih =>
    rw [firstRepeated?] at h
    split at h
    · next hseen =>
      cases h
      exact Or.inl ⟨hseen, List.mem_cons_self⟩
    · rcases ih h with ⟨hseen, hmem⟩ | htwice
      · rcases List.mem_cons.1 hseen with rfl | hseen
        · exact Or.inr hmem.duplicate_cons_self
        · exact Or.inl ⟨hseen, List.mem_cons_of_mem _ hmem⟩
      · exact Or.inr (htwice.duplicate_cons first)

/-- What is seen to be wrong with one type. -/
theorem checkType_cases (moduleName : String) (seen : List (String × String)) (type : TypeInfo) :
    checkType moduleName seen type = none ∧ type.moduleName = moduleName ∧
        (type.namespaceName, type.name) ∉ seen ∧ (type.allProperties.map (·.name)).Nodup ∨
      type.moduleName ≠ moduleName ∧
        checkType moduleName seen type =
          some (.moduleMismatch type.name type.moduleName moduleName) ∨
      (type.namespaceName, type.name) ∈ seen ∧
        checkType moduleName seen type =
          some (.duplicateType moduleName type.namespaceName type.name) ∨
      ∃ name, List.Duplicate name (type.allProperties.map (·.name)) ∧
        checkType moduleName seen type = some (.duplicateProperty type.name name) := by
  unfold checkType
  by_cases hmodule : type.moduleName = moduleName
  · rw [if_neg (not_not_intro hmodule)]
    by_cases hseen : (type.namespaceName, type.name) ∈ seen
    · rw [if_pos hseen]
      exact Or.inr (Or.inr (Or.inl ⟨hseen, rfl⟩))
    · rw [if_neg hseen]
      cases hrepeated : firstRepeated? [] (type.allProperties.map (·.name)) with
      | none =>
        exact Or.inl ⟨rfl, hmodule, hseen, ((firstRepeated?_eq_none_iff _ _).1 hrepeated).1⟩
      | some name =>
        have htwice := (of_firstRepeated?_eq_some hrepeated).resolve_left fun h =>
          List.not_mem_nil h.1
        exact Or.inr (Or.inr (Or.inr ⟨name, htwice, rfl⟩))
  · rw [if_pos hmodule]
    exact Or.inr (Or.inl ⟨hmodule, rfl⟩)

/-- **The check of a module** passes over sound ones and finds something wrong with all others. In
the loop, `before` are the types that were passed. -/
theorem checkTypes_cases {m : TypeModule} {before types : List TypeInfo}
    (htypes : m.types = before ++ types)
    (hbefore : (⟨m.name, before, m.resources⟩ : TypeModule).Sound) {seen : List (String × String)}
    (hseen : ∀ key, key ∈ seen ↔ key ∈ before.map fun type => (type.namespaceName, type.name)) :
    checkTypes m.name seen types = none ∧ m.Sound ∨
      ∃ error, checkTypes m.name seen types = some error ∧ Objection m error := by
  induction types generalizing before seen with
  | nil =>
    rw [List.append_nil] at htypes
    subst htypes
    exact Or.inl ⟨rfl, hbefore⟩
  | cons type types ih =>
    have hmem : type ∈ m.types := htypes ▸ List.mem_append_right _ List.mem_cons_self
    rw [checkTypes]
    rcases checkType_cases m.name seen type with
      ⟨hcheck, hmodule, hnew, hproperties⟩ | ⟨hmodule, hcheck⟩ | ⟨hold, hcheck⟩ |
      ⟨name, htwice, hcheck⟩
    · rw [hcheck]
      refine @ih (before ++ [type]) ?_ ?_ ((type.namespaceName, type.name) :: seen) ?_
      · rw [htypes, List.append_assoc]
        rfl
      · refine ⟨fun other hother => ?_, ?_, fun other hother => ?_⟩
        · rcases List.mem_append.1 hother with hother | hlast
          · exact hbefore.declared other hother
          · rw [List.mem_singleton.1 hlast]
            exact hmodule
        · show ((before ++ [type]).map _).Nodup
          rw [List.map_append, List.nodup_append]
          refine ⟨hbefore.names, List.nodup_singleton _, fun key hkey other hlast heq => ?_⟩
          rw [heq, List.mem_singleton.1 hlast] at hkey
          exact hnew ((hseen _).2 hkey)
        · rcases List.mem_append.1 hother with hother | hlast
          · exact hbefore.properties other hother
          · rw [List.mem_singleton.1 hlast]
            exact hproperties
      · intro key
        rw [List.map_append, List.mem_append, List.mem_cons, hseen, or_comm]
        exact or_congr_right List.mem_singleton.symm
    · rw [hcheck]
      exact Or.inr ⟨_, rfl, .declared hmem hmodule⟩
    · rw [hcheck]
      refine Or.inr ⟨_, rfl, .names ?_⟩
      rw [htypes, List.map_append, List.map_cons, List.duplicate_iff_sublist]
      exact (List.singleton_sublist.2 ((hseen _).1 hold)).append
        (List.singleton_sublist.2 List.mem_cons_self)
    · rw [hcheck]
      exact Or.inr ⟨_, rfl, .properties hmem htwice⟩

theorem TypeModule.sound_or_objection (m : TypeModule) :
    checkTypes m.name [] m.types = none ∧ m.Sound ∨
      ∃ error, checkTypes m.name [] m.types = some error ∧ Objection m error := by
  have hempty : (⟨m.name, [], m.resources⟩ : TypeModule).Sound := by
    refine ⟨fun type hmem => ?_, List.nodup_nil, fun type hmem => ?_⟩ <;> cases hmem
  exact checkTypes_cases rfl hempty fun key => Iff.rfl

/-! ## Calls -/

namespace Catalog

/-- **A registration** is refused because the name is taken, refused for what is wrong with the
module, or adds a sound module under a new name. -/
theorem register_cases (catalog : Catalog) (m : TypeModule) :
    (∃ old ∈ catalog.modules, old.name = m.name) ∧
    catalog.register m = .error (.duplicateModule m.name) ∨
      (∀ old ∈ catalog.modules, old.name ≠ m.name) ∧
        (m.Sound ∧ catalog.register m = .ok ⟨catalog.modules ++ [m]⟩ ∨
          ∃ error, Objection m error ∧ catalog.register m = .error error) := by
  unfold register module?
  by_cases htaken : ∃ old ∈ catalog.modules, old.name = m.name
  · obtain ⟨old, hmem, hname⟩ := htaken
    have hfound : (catalog.modules.find? (·.name == m.name)).isSome = true :=
      List.find?_isSome.2 ⟨old, hmem, by simpa using hname⟩
    exact Or.inl ⟨⟨old, hmem, hname⟩, if_pos hfound⟩
  · have hnew : ∀ old ∈ catalog.modules, old.name ≠ m.name :=
      fun old hmem hname => htaken ⟨old, hmem, hname⟩
    have hnone : ¬ (catalog.modules.find? (·.name == m.name)).isSome = true := by
      intro hfound
      obtain ⟨old, hmem, hname⟩ := List.find?_isSome.1 hfound
      exact hnew old hmem (by simpa using hname)
    rw [if_neg hnone]
    refine Or.inr ⟨hnew, ?_⟩
    rcases m.sound_or_objection with ⟨hcheck, hsound⟩ | ⟨error, hcheck, hobjection⟩
    · exact Or.inl ⟨hsound, by rw [hcheck]⟩
    · exact Or.inr ⟨error, hobjection, by rw [hcheck]⟩

/-- Under other names the same modules are found as before. -/
theorem module?_append_of_ne (catalog : Catalog) {m : TypeModule} {name : String}
    (h : name ≠ m.name) :
    (⟨catalog.modules ++ [m]⟩ : Catalog).module? name = catalog.module? name := by
  have hlast : [m].find? (·.name == name) = none := by
    rw [List.find?_eq_none]
    intro other hmem heq
    rw [List.mem_singleton.1 hmem] at heq
    exact h (beq_iff_eq.1 heq).symm
  rw [module?, module?, List.find?_append, hlast, Option.or_none]

/-- What a call of `register` answers, and the catalogue behind it. -/
def call (catalog : Catalog) (m : TypeModule) : Except CatalogError Unit × Catalog :=
  match catalog.register m with
  | .ok next => (.ok (), next)
  | .error error => (.error error, catalog)

/-- The catalogues that calls lead to, whatever they answer. -/
inductive Reached : Catalog → Prop
  | empty : Reached empty
  | framework : Reached Forms.catalog
  | call {catalog : Catalog} (m : TypeModule) (h : catalog.Reached) : Reached (catalog.call m).2

/-- Each module stands once, under its own name, and nothing is wrong with it. -/
structure Consistent (catalog : Catalog) : Prop where
  names : (catalog.modules.map (·.name)).Nodup
  modules (m : TypeModule) : m ∈ catalog.modules → catalog.module? m.name = some m
  sound (m : TypeModule) : m ∈ catalog.modules → m.Sound

section Calls

variable {catalog : Catalog} {m : TypeModule}

theorem Consistent.of_names (hnames : (catalog.modules.map (·.name)).Nodup)
    (hsound : ∀ m ∈ catalog.modules, m.Sound) : catalog.Consistent where
  names := hnames
  modules m hmem := by
    obtain ⟨before, after, hsplit⟩ := List.append_of_mem hmem
    rw [hsplit, List.map_append, List.map_cons, List.nodup_append] at hnames
    -- the name stands nowhere in front of the module
    have hbefore : before.find? (·.name == m.name) = none := by
      rw [List.find?_eq_none]
      intro other hother heq
      exact hnames.2.2 other.name (List.mem_map_of_mem hother) m.name List.mem_cons_self
        (by simpa using heq)
    rw [module?, hsplit, List.find?_append, hbefore, Option.none_or]
    exact List.find?_cons_of_pos (beq_self_eq_true m.name)
  sound := hsound

/-- **One call**: what is consistent stays consistent. -/
theorem Consistent.call (h : catalog.Consistent) (m : TypeModule) :
    (catalog.call m).2.Consistent := by
  unfold Catalog.call
  rcases catalog.register_cases m with ⟨-, hregister⟩ |
    ⟨hnew, ⟨hsound, hregister⟩ | ⟨error, -, hregister⟩⟩
  · rw [hregister]
    exact h
  · rw [hregister]
    refine .of_names ?_ fun other hother => ?_
    · rw [List.map_append, List.nodup_append]
      refine ⟨h.names, List.nodup_singleton _, fun name hname other hlast => ?_⟩
      obtain ⟨old, hmem, rfl⟩ := List.mem_map.1 hname
      rw [List.mem_singleton.1 hlast]
      exact hnew old hmem
    · rcases List.mem_append.1 hother with hother | hlast
      · exact h.sound other hother
      · rw [List.mem_singleton.1 hlast]
        exact hsound
  · rw [hregister]
    exact h

theorem consistent_empty : empty.Consistent :=
  .of_names List.nodup_nil fun _ hmem => nomatch hmem

/-- **Any calls**, in any order and with any answers. -/
theorem Reached.consistent (h : catalog.Reached) : catalog.Consistent := by
  induction h with
  | empty => exact consistent_empty
  | framework =>
    -- the framework module is registered like any other
    have hframework := consistent_empty.call Forms.typeModule
    unfold Catalog.call at hframework
    rw [Forms.register_typeModule] at hframework
    exact hframework
  | call m _ ih => exact ih.call m

/-- **Registration is atomic and exact.** After any calls of `register` the catalogue is consistent.
The next call with any module leaves it exactly as it is if the module is refused. Otherwise it adds
the module behind the others and finds it under its name, and whatever else it finds as before. The
module is refused if and only if its name is taken or something is wrong with it, and the error says
what. -/
theorem register_exact (h : catalog.Reached) (m : TypeModule) :
    catalog.Consistent ∧
      (∀ error, (catalog.call m).1 = .error error → (catalog.call m).2 = catalog) ∧
      ((catalog.call m).1 = .ok () → (catalog.call m).2.modules = catalog.modules ++ [m] ∧
        (catalog.call m).2.module? m.name = some m ∧
          ∀ name ≠ m.name, (catalog.call m).2.module? name = catalog.module? name) ∧
      ((∃ error, (catalog.call m).1 = .error error) ↔
        (∃ old ∈ catalog.modules, old.name = m.name) ∨ ¬ m.Sound) ∧
      ∀ error, (catalog.call m).1 = .error error →
        error = .duplicateModule m.name ∧ (∃ old ∈ catalog.modules, old.name = m.name) ∨
        Objection m error := by
  refine ⟨h.consistent, ?_⟩
  have hafter := (Reached.call m h).consistent
  unfold call at hafter ⊢
  rcases catalog.register_cases m with
    ⟨htaken, hregister⟩ | ⟨hnew, ⟨hsound, hregister⟩ | ⟨refusal, hobjection, hregister⟩⟩
  · rw [hregister]
    refine ⟨fun _ _ => rfl, fun hok => ?_, ⟨fun _ => Or.inl htaken, fun _ => ⟨_, rfl⟩⟩,
      fun error herror => ?_⟩
    · cases hok
    · cases herror
      exact Or.inl ⟨rfl, htaken⟩
  · rw [hregister] at hafter ⊢
    refine ⟨fun error herror => ?_, fun _ => ⟨rfl, ?_, fun name hname => ?_⟩, ⟨?_, ?_⟩,
      fun error herror => ?_⟩
    · cases herror
    · exact hafter.modules m (List.mem_append_right _ (List.mem_singleton_self m))
    · exact catalog.module?_append_of_ne hname
    · rintro ⟨error, herror⟩
      cases herror
    · rintro (⟨old, hmem, hname⟩ | hbad)
      · exact absurd hname (hnew old hmem)
      · exact absurd hsound hbad
    · cases herror
  · rw [hregister]
    refine ⟨fun _ _ => rfl, fun hok => ?_,
      ⟨fun _ => Or.inr hobjection.not_sound, fun _ => ⟨_, rfl⟩⟩,
      fun error herror => ?_⟩
    · cases hok
    · cases herror
      exact Or.inr hobjection

end Calls

/-- A module with a label that declares the text of labels once more. -/
def shadowingModule : TypeModule where
  name := "Test"
  types :=
    [.derive ⟨⟨"Test", 0⟩, "Test", "Test", "Shadowing", true, .none, [.plain "Text" .text], none⟩
    (some Forms.label)]
  resources := []

/-- The property is declared by a base in another module, and the module is refused for it. -/
theorem register_shadowingModule :
    Forms.catalog.Reached ∧
      (Forms.catalog.call shadowingModule).1 = .error (.duplicateProperty "Shadowing" "Text") ∧
      (Forms.catalog.call shadowingModule).2 = Forms.catalog ∧ ¬ shadowingModule.Sound := by
  have hrefused : (Forms.catalog.call shadowingModule).1 =
      .error (.duplicateProperty "Shadowing" "Text") := by
    rfl
  obtain ⟨-, hkept, -, hexact, -⟩ := register_exact .framework shadowingModule
  refine ⟨.framework, hrefused, hkept _ hrefused, ?_⟩
  refine (hexact.1 ⟨_, hrefused⟩).resolve_left ?_
  rintro ⟨old, hmem, hname⟩
  rw [List.mem_singleton.1 hmem] at hname
  exact absurd hname (by decide)

end Catalog

end MarkupForms
