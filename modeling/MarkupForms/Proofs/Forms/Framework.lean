import MarkupForms.Forms.Framework
import MarkupForms.Proofs.Objects.Kinds

/-!
# The framework's types and their new objects

The names of the framework's types are distinct, and `Id` is a plain text on each type that has it.
The constructors leave objects empty: no managed value, no binding, no item, no entry, no id.
-/

namespace MarkupForms

/-- An object without contents: whatever it can hold, it holds nothing yet. -/
structure ObjectState.Blank (state : ObjectState) : Prop where
  store : ∀ store, state.store = some store → store = .empty
  items : ∀ items, state.items = some items → items = []
  entries : ∀ entries, state.entries = some entries → entries = .empty
  id : state.plain? "Id" = none

namespace Forms

theorem contains_iff {type : TypeInfo} : catalog.Contains type ↔ type ∈ types := by
  constructor
  · rintro ⟨m, hm, htype⟩
    rw [catalog, List.mem_singleton] at hm
    subst hm
    exact htype
  · exact fun h => ⟨typeModule, List.mem_singleton.2 rfl, h⟩

/-- What holds of each of the framework's types. -/
structure Regular (type : TypeInfo) : Prop where
  /-- The name leads to this type. -/
  find? : types.find? (·.name == type.name) = some type
  idNotManaged : type.findManaged "Id" = none
  idIsText {kind : ValueKind} : type.findPlain "Id" = some kind → kind = .text
  blank {state : ObjectState} : type.constructor = some state → state.Blank

theorem regular_of_mem {type : TypeInfo} (htype : type ∈ types) : Regular type := by
  simp only [types, List.mem_cons, List.not_mem_nil, or_false] at htype
  rcases htype with rfl | rfl | rfl | rfl | rfl | rfl | rfl | rfl | rfl | rfl | rfl <;>
    refine ⟨rfl, rfl, fun hkind => by cases hkind <;> rfl, fun hstate => ?_⟩ <;>
    cases hstate <;>
    exact ⟨fun _ h => by cases h <;> rfl, fun _ h => by cases h <;> rfl,
      fun _ h => by cases h <;> rfl, rfl⟩

theorem mem_of_lookup {moduleName namespaceName name : String} {type : TypeInfo}
    (h : catalog.lookup moduleName namespaceName name = some type) :
    type ∈ types ∧ type.name = name := by
  obtain ⟨m, hm, hfind⟩ := Option.bind_eq_some_iff.1 h
  refine ⟨contains_iff.1 (Catalog.contains_of_lookup h), ?_⟩
  have hname := List.find?_some hfind
  rw [Bool.and_eq_true] at hname
  exact eq_of_beq hname.2

/-- What the framework's constructors leave in stores fits: nothing. -/
theorem newObjectsFit : catalog.NewObjectsFit := by
  intro type state hcontains hstate store hstore
  rw [((regular_of_mem (contains_iff.1 hcontains)).blank hstate).store store hstore]
  exact StoreFits.empty type

end Forms

end MarkupForms
