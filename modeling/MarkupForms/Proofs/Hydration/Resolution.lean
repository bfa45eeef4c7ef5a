import Mathlib.Data.List.Nodup
import MarkupForms.Proofs.Hydration.Resolver
import MarkupForms.Proofs.Types.Consistency

/-!
# What an element names

The answer of a resolver, in terms of the registered types alone: which module, namespace and name
an element asks for, and that at most one registered type has them. A resolver remembers the
declarations that it has read, but it remembers them as they are spelled, so it answers as if it
were asked for the first time.
-/

namespace MarkupForms

/-! ## Types by module, namespace and name -/

/-- What a type declares to be: its module, its namespace and its name. -/
def TypeDecl.path (decl : TypeDecl) : String × String × String :=
  (decl.moduleName, decl.namespaceName, decl.name)

namespace Catalog

/-- All registered types with this module, namespace and name, wherever they are registered. -/
def named (catalog : Catalog) (moduleName namespaceName name : String) : List TypeInfo :=
  (catalog.modules.flatMap (·.types)).filter (·.path = (moduleName, namespaceName, name))

section Named

variable {catalog : Catalog} {moduleName namespaceName name : String} {type : TypeInfo}

theorem mem_named : type ∈ catalog.named moduleName namespaceName name ↔
    ∃ m ∈ catalog.modules, type ∈ m.types ∧ type.path = (moduleName, namespaceName, name) := by
  rw [named, List.mem_filter, List.mem_flatMap]
  constructor
  · rintro ⟨⟨m, hm, htype⟩, hpath⟩
    exact ⟨m, hm, htype, of_decide_eq_true hpath⟩
  · rintro ⟨m, hm, htype, hpath⟩
    exact ⟨⟨m, hm, htype⟩, decide_eq_true hpath⟩

/-- No two registered types have the same path: in one module names are distinct, and types of
different modules declare different ones. -/
theorem Consistent.nodup_paths (h : catalog.Consistent) :
    ((catalog.modules.flatMap (·.types)).map (·.path)).Nodup := by
  rw [List.map_flatMap, List.nodup_flatMap]
  constructor
  · intro m hm
    have hnames := (h.sound m hm).names
    rw [show (fun type : TypeInfo => (type.namespaceName, type.name)) =
      Prod.snd ∘ (·.path) from rfl, ← List.map_map] at hnames
    exact hnames.of_map _
  · refine (List.pairwise_map.1 h.names).imp_of_mem fun {m other} hm hother hne => ?_
    intro path hpath hpath'
    obtain ⟨type, htype, rfl⟩ := List.mem_map.1 hpath
    obtain ⟨type', htype', hsame⟩ := List.mem_map.1 hpath'
    apply hne
    rw [← (h.sound m hm).declared type htype, ← (h.sound other hother).declared type' htype']
    exact (congrArg Prod.fst hsame).symm

/-- **There is never more than one** type with a module, a namespace and a name. -/
theorem Consistent.length_named_le (h : catalog.Consistent)
    (moduleName namespaceName name : String) :
    (catalog.named moduleName namespaceName name).length ≤ 1 := by
  have hcount := List.nodup_iff_count_le_one.1 h.nodup_paths (moduleName, namespaceName, name)
  rw [List.count_eq_countP, List.countP_map, List.countP_eq_length_filter] at hcount
  refine Nat.le_trans (Nat.le_of_eq (congrArg List.length (List.filter_congr fun type _ => ?_)))
    hcount
  exact (beq_eq_decide _ _).symm

theorem Consistent.mem_named_of_find (h : catalog.Consistent) {m : TypeModule}
    (hm : m ∈ catalog.modules) (hfind : m.find namespaceName name = some type) :
    type ∈ catalog.named m.name namespaceName name := by
  have htype := List.mem_of_find?_eq_some hfind
  have hkeys := List.find?_some hfind
  rw [Bool.and_eq_true, beq_iff_eq, beq_iff_eq] at hkeys
  refine mem_named.2 ⟨m, hm, htype, ?_⟩
  rw [TypeDecl.path, (h.sound m hm).declared type htype, hkeys.1, hkeys.2]

/-- What a module finds is all that there is under its name. -/
theorem Consistent.named_eq (h : catalog.Consistent) {m : TypeModule} (hm : m ∈ catalog.modules)
    (namespaceName name : String) :
    catalog.named m.name namespaceName name = (m.find namespaceName name).toList := by
  have hle := h.length_named_le m.name namespaceName name
  cases hfind : m.find namespaceName name with
  | none =>
    rw [Option.toList_none, List.eq_nil_iff_forall_not_mem]
    intro type hmem
    obtain ⟨other, hother, htype, hpath⟩ := mem_named.1 hmem
    -- a type says which module it belongs to
    have hname : other.name = m.name :=
      ((h.sound other hother).declared type htype).symm.trans (congrArg Prod.fst hpath)
    have hsame : other = m := by
      have hfound := h.modules other hother
      rw [hname, h.modules m hm] at hfound
      exact (Option.some.inj hfound).symm
    subst hsame
    refine List.find?_eq_none.1 hfind type htype ?_
    rw [Bool.and_eq_true, beq_iff_eq, beq_iff_eq]
    exact Prod.mk.inj (congrArg Prod.snd hpath)
  | some type =>
    have hmem := h.mem_named_of_find hm hfind
    obtain ⟨only, honly⟩ :=
      List.length_eq_one_iff.1 (Nat.le_antisymm hle (List.length_pos_of_mem hmem))
    rw [honly, List.mem_singleton] at hmem
    rw [honly, ← hmem, Option.toList_some]

/-- A module that is not registered has no types. -/
theorem Consistent.named_eq_nil (h : catalog.Consistent)
    (hnone : ∀ m ∈ catalog.modules, m.name ≠ moduleName) (namespaceName name : String) :
    catalog.named moduleName namespaceName name = [] := by
  rw [List.eq_nil_iff_forall_not_mem]
  intro type hmem
  obtain ⟨m, hm, htype, hpath⟩ := mem_named.1 hmem
  exact hnone m hm (((h.sound m hm).declared type htype).symm.trans (congrArg Prod.fst hpath))

theorem module?_cases (catalog : Catalog) (moduleName : String) :
    (∃ m ∈ catalog.modules, m.name = moduleName ∧ catalog.module? moduleName = some m) ∨
      (∀ m ∈ catalog.modules, m.name ≠ moduleName) ∧ catalog.module? moduleName = none := by
  cases hfind : catalog.module? moduleName with
  | some m =>
    exact Or.inl ⟨m, List.mem_of_find?_eq_some hfind, by simpa using List.find?_some hfind, rfl⟩
  | none =>
    exact Or.inr ⟨fun m hm hname => List.find?_eq_none.1 hfind m hm (beq_iff_eq.2 hname), rfl⟩

/-- A look-up finds the one type that there is. -/
theorem Consistent.toList_lookup (h : catalog.Consistent) (moduleName namespaceName name : String) :
    (catalog.lookup moduleName namespaceName name).toList =
      catalog.named moduleName namespaceName name := by
  rw [lookup]
  rcases catalog.module?_cases moduleName with ⟨m, hm, rfl, hfind⟩ | ⟨hnone, hfind⟩
  · rw [hfind, Option.bind_some, h.named_eq hm]
  · rw [hfind, Option.bind_none, h.named_eq_nil hnone, Option.toList_none]

end Named

end Catalog

namespace Hydration

open Markup

/-! ## What has to be answered -/

/-- The name is the part of `element` behind its last colon: all of it if there is no colon. -/
def BehindLastColon (element name : String) : Prop :=
  ':' ∉ name.toList ∧ (element = name ∨ ∃ before, element.toList = before ++ ':' :: name.toList)

/-- The namespace is not one of the framework's, and this is the declaration that it spells. -/
def Declares (uri : String) (decl : Declaration) : Prop :=
  isFramework uri = false ∧ Declaration.parse uri = .ok decl

/-- **What an element called `name` has to name** in the namespace `uri`: a registered type, or why
there is none. Nothing that was asked before comes in. -/
inductive Names (catalog : Catalog) (localModule : Option String) (uri name : String) :
    Except MarkupError TypeInfo → Prop
  | framework {type : TypeInfo} (huri : isFramework uri = true)
      (htype : catalog.named "Kiln.Forms" "Kiln.Forms" name = [type]) :
      Names catalog localModule uri name (.ok type)
  | noFrameworkType (huri : isFramework uri = true)
      (hnone : catalog.named "Kiln.Forms" "Kiln.Forms" name = []) :
      Names catalog localModule uri name (.error (.resolution uri name .noFrameworkType))
  | malformed {fault : DeclarationFault} (huri : isFramework uri = false)
      (hfault : Declaration.parse uri = .error fault) :
      Names catalog localModule uri name (.error (.declaration uri fault))
  | noNamespace {decl : Declaration} (huri : Declares uri decl)
      (hnone : decl.namespaceName = none) :
      Names catalog localModule uri name (.error (.declaration uri .namesNoNamespace))
  | noModule {decl : Declaration} (huri : Declares uri decl)
      (hnamespace : decl.namespaceName.isSome = true)
      (hnone : decl.moduleName = none ∧ localModule = none) :
      Names catalog localModule uri name (.error (.resolution uri name .noModuleNamed))
  | unregistered {decl : Declaration} {moduleName : String} (huri : Declares uri decl)
      (hnamespace : decl.namespaceName.isSome = true)
      (hmodule : decl.moduleName.or localModule = some moduleName)
      (hnone : ∀ m ∈ catalog.modules, m.name ≠ moduleName) :
      Names catalog localModule uri name (.error
        (.resolution uri name (.moduleNotLoaded moduleName)))
  | noType {decl : Declaration} {moduleName namespaceName : String} (huri : Declares uri decl)
      (hnamespace : decl.namespaceName = some namespaceName)
      (hmodule : decl.moduleName.or localModule = some moduleName)
      (hregistered : ∃ m ∈ catalog.modules, m.name = moduleName)
      (hnone : catalog.named moduleName namespaceName name = []) :
      Names catalog localModule uri name (.error (.resolution uri name (.noTypeIn moduleName)))
  | declared {decl : Declaration} {moduleName namespaceName : String} {type : TypeInfo}
      (huri : Declares uri decl)
      (hnamespace : decl.namespaceName = some namespaceName)
      (hmodule : decl.moduleName.or localModule = some moduleName)
      (htype : catalog.named moduleName namespaceName name = [type]) :
      Names catalog localModule uri name (.ok type)

namespace Resolver

theorem behindLastColon_baseName (element : String) :
    BehindLastColon element (baseName element) := by
  unfold baseName
  cases hcut : Text.splitAtLast? ':' element.toList with
  | none => exact ⟨Text.splitAtLast?_eq_none_iff.1 hcut, Or.inl rfl⟩
  | some parts =>
    obtain ⟨before, after⟩ := parts
    obtain ⟨hsplit, hnone⟩ := Text.splitAtLast?_eq_some hcut
    refine ⟨?_, Or.inr ⟨before, ?_⟩⟩
    · rwa [String.toList_ofList]
    · rw [String.toList_ofList]
      exact hsplit

/-! ## What a resolver answers -/

/-- The answer of a resolver that has read nothing yet. -/
def answer (catalog : Catalog) (localModule : Option String) (uri element : String) :
    Except MarkupError TypeInfo :=
  ((ofCatalog catalog localModule).resolve uri element).1

section Answers

variable {catalog : Catalog} {localModule : Option String} {uri : String}

/-- What a declaration leads to. -/
theorem names_findDeclared (h : catalog.Consistent) {decl : Declaration} (huri : Declares uri decl)
    (name : String) :
    Names catalog localModule uri name (findDeclared catalog localModule uri name decl) := by
  unfold findDeclared
  cases hnamespace : decl.namespaceName with
  | none => exact .noNamespace huri hnamespace
  | some namespaceName =>
    have hsome : decl.namespaceName.isSome = true := by rw [hnamespace, Option.isSome_some]
    cases hmodule : decl.moduleName.or localModule with
    | none => exact .noModule huri hsome (Option.or_eq_none_iff.1 hmodule)
    | some moduleName =>
      dsimp only
      rcases catalog.module?_cases moduleName with ⟨m, hm, rfl, hfind⟩ | ⟨hnone, hfind⟩
      · have hnamed := h.named_eq hm namespaceName name
        rw [hfind]
        dsimp only
        cases htype : m.find namespaceName name with
        | none =>
          rw [htype, Option.toList_none] at hnamed
          exact .noType huri hnamespace hmodule ⟨m, hm, rfl⟩ hnamed
        | some type =>
          rw [htype, Option.toList_some] at hnamed
          exact .declared huri hnamespace hmodule hnamed
      · rw [hfind]
        exact .unregistered huri hsome hmodule hnone

/-- **The first answer** is what has to be answered. -/
theorem names_answer (h : catalog.Consistent) (element : String) :
    Names catalog localModule uri (baseName element) (answer catalog localModule uri element) := by
  unfold answer resolve ofCatalog declaration
  dsimp only
  rw [OrderedMap.get?_empty]
  dsimp only
  cases huri : isFramework uri with
  | true =>
    have hnamed := h.toList_lookup Forms.moduleName Forms.moduleName (baseName element)
    rw [if_pos rfl]
    cases hlookup : catalog.lookup Forms.moduleName Forms.moduleName (baseName element) with
    | none =>
      rw [hlookup, Option.toList_none] at hnamed
      exact .noFrameworkType huri hnamed.symm
    | some type =>
      rw [hlookup, Option.toList_some] at hnamed
      exact .framework huri hnamed.symm
  | false =>
    rw [if_neg Bool.false_ne_true]
    cases hparse : Declaration.parse uri with
    | error fault => exact .malformed huri hparse
    | ok decl => exact names_findDeclared h ⟨huri, hparse⟩ (baseName element)

end Answers

/-! ## What a resolver remembers -/

/-- The resolver answers for this catalogue and this local module, and each declaration that it
remembers is the one that its namespace spells. -/
structure Remembers (catalog : Catalog) (localModule : Option String) (r : Resolver) : Prop where
  catalog : r.catalog = catalog
  localModule : r.localModule = localModule
  declarations (uri : String) (decl : Declaration) : r.declarations.get? uri = some decl →
    Declaration.parse uri = .ok decl

/-- The resolver after it was asked for types, each by its namespace and its element. -/
def after (r : Resolver) (queries : List (String × String)) : Resolver :=
  queries.foldl (fun r query => (r.resolve query.1 query.2).2) r

namespace Remembers

variable {catalog : Catalog} {localModule : Option String} {r : Resolver}

theorem start (catalog : Catalog) (localModule : Option String) :
    Remembers catalog localModule (ofCatalog catalog localModule) where
  catalog := rfl
  localModule := rfl
  declarations _ _ hget := nomatch hget

/-- Remembered or not, a declaration is read as it is spelled. -/
theorem declaration (h : Remembers catalog localModule r) (uri : String) :
    (r.declaration uri).1 = Declaration.parse uri ∧
    Remembers catalog localModule (r.declaration uri).2 := by
  unfold Resolver.declaration
  cases hget : r.declarations.get? uri with
  | some decl => exact ⟨(h.declarations uri decl hget).symm, h⟩
  | none =>
    cases hparse : Declaration.parse uri with
    | error fault => exact ⟨rfl, h⟩
    | ok decl =>
      refine ⟨rfl, h.catalog, h.localModule, fun other declared hdeclared => ?_⟩
      rw [OrderedMap.get?_insert] at hdeclared
      split at hdeclared
      · next heq =>
        cases hdeclared
        exact heq ▸ hparse
      · exact h.declarations other declared hdeclared

/-- **One query** is answered as by a new resolver, and spoils nothing. -/
theorem resolve (h : Remembers catalog localModule r) (uri element : String) :
    (r.resolve uri element).1 = answer catalog localModule uri element ∧
      Remembers catalog localModule (r.resolve uri element).2 := by
  obtain ⟨hread, hnext⟩ := h.declaration uri
  obtain ⟨hfirst, -⟩ := (start catalog localModule).declaration uri
  unfold answer Resolver.resolve
  dsimp only
  rw [h.catalog, h.localModule]
  cases isFramework uri with
  | true =>
    rw [if_pos rfl, if_pos rfl]
    cases hlookup : catalog.lookup Forms.moduleName Forms.moduleName (baseName element) with
    | none => exact ⟨by rw [ofCatalog, hlookup], h⟩
    | some type => exact ⟨by rw [ofCatalog, hlookup], h⟩
  | false =>
    rw [if_neg Bool.false_ne_true, if_neg Bool.false_ne_true]
    rcases hkept : r.declaration uri with ⟨kept, next⟩
    rcases hnew : (ofCatalog catalog localModule).declaration uri with ⟨new, last⟩
    rw [hkept] at hread hnext
    rw [hnew] at hfirst
    have hsame : kept = new := hread.trans hfirst.symm
    subst hsame
    cases kept with
    | error fault => exact ⟨rfl, hnext⟩
    | ok decl => exact ⟨rfl, hnext⟩

/-- **Any queries**, one after the other. -/
theorem after (h : Remembers catalog localModule r) (queries : List (String × String)) :
    Remembers catalog localModule (r.after queries) := by
  induction queries generalizing r with
  | nil => exact h
  | cons query queries ih => exact ih (h.resolve query.1 query.2).2

end Remembers

/-- **Resolution is exact and has no memory.** Take any catalogue that calls of `register` lead to,
any local module, and any queries. Afterwards the resolver answers as it would have answered at
first: with what the part of the element behind its last colon has to name, which is a matter of the
registered types alone. And there is never more than one type with the same module, namespace and
name. -/
theorem resolve_exact {catalog : Catalog} (h : catalog.Reached) (localModule : Option String)
    (queries : List (String × String)) (uri element : String) :
    let r := ofCatalog catalog localModule
    ((r.after queries).resolve uri element).1 = (r.resolve uri element).1 ∧
      (∃ name, BehindLastColon element name ∧
        Names catalog localModule uri name (r.resolve uri element).1) ∧
      ∀ moduleName namespaceName name, (catalog.named moduleName namespaceName name).length ≤
        1 := by
  intro r
  have hstart := Remembers.start catalog localModule
  refine ⟨((hstart.after queries).resolve uri element).1, ⟨baseName element, ?_, ?_⟩, ?_⟩
  · exact behindLastColon_baseName element
  · exact names_answer h.consistent element
  · exact h.consistent.length_named_le

/-- A declaration without a module is read, then one with another module, and then the first once
more. It leads to the label of the local module, as at first. -/
theorem resolve_exact_localLabel :
    let r := ofCatalog Forms.catalog (some "Kiln.Forms")
    let asked := r.after [("clr-namespace:Kiln.Forms", "Entry"),
      ("clr-namespace:Kiln.Forms;assembly=Other", "Label")]
    Forms.catalog.Reached ∧ asked.declarations.size = 2 ∧
      (asked.resolve "clr-namespace:Kiln.Forms" "local:Label").1 = .ok Forms.label ∧
      ∃ name, BehindLastColon "local:Label" name ∧
        Names Forms.catalog (some "Kiln.Forms") "clr-namespace:Kiln.Forms" name
          (.ok Forms.label) := by
  intro r asked
  have hfirst : (r.resolve "clr-namespace:Kiln.Forms" "local:Label").1 = .ok Forms.label := rfl
  obtain ⟨hsame, hnames, -⟩ := resolve_exact .framework (some "Kiln.Forms")
    [("clr-namespace:Kiln.Forms", "Entry"), ("clr-namespace:Kiln.Forms;assembly=Other", "Label")]
    "clr-namespace:Kiln.Forms" "local:Label"
  rw [hfirst] at hnames
  exact ⟨.framework, rfl, hsame.trans hfirst, hnames⟩

end Resolver

end Hydration

end MarkupForms
