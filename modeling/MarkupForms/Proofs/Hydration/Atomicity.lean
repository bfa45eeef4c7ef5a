import Mathlib.Data.List.TakeWhile
import MarkupForms.Proofs.Hydration.KindSafety

/-!
# One assignment, one write

An assignment has several points at which it can be refused: the property is looked up, a text is
parsed or coerced, the object may have no store or may not take a plain value, resources may come
from no keyed container. `Pass.assign` gives a new pass or an error and so cannot show what a
refused assignment has written by then. `route` is the same assignment as a program that changes the
pass as it goes and takes nothing back: it comes to what `Pass.assign` says (`outcome_route`), so no
write comes before a refusal.

An accepted assignment writes the resources, or one binding, or one value of its target
(`OneWrite`).
-/

namespace MarkupForms.Hydration

/-! ## Work that takes nothing back -/

/-- Work on a pass. What it has changed stays changed when it fails later. -/
abbrev Routing : Type → Type :=
  ExceptT MarkupError (StateM Pass)

namespace Routing

variable {α β : Type} {p q : Pass}

/-- How work on a pass ends, and what it makes of the pass. -/
def outcome (work : Routing α) (p : Pass) : Except MarkupError α × Pass :=
  work.run.run p

theorem outcome_bind {work : Routing α} {rest : α → Routing β} {a : α}
    (h : work.outcome p = (.ok a, q)) : (work >>= rest).outcome p = (rest a).outcome q := by
  unfold outcome at h ⊢
  rw [ExceptT.run_bind, StateT.run_bind, h]
  rfl

theorem outcome_get_bind (rest : Pass → Routing β) (p : Pass) :
    (get >>= rest).outcome p = (rest p).outcome p :=
  outcome_bind rfl

theorem outcome_ofExcept_bind (result : Except MarkupError α) (rest : α → Routing β) (p : Pass) :
    (MonadExcept.ofExcept result >>= rest).outcome p =
      match result with
      | .ok a => (rest a).outcome p
      | .error error => (.error error, p) := by
  cases result with
  | ok a => exact outcome_bind rfl
  | error error => rfl

/-! ## The program -/

/-- Inserts entries among the resources, one after the other. -/
def copyEntries : List (String × ObjectId) → Routing Unit
  | [] => pure ()
  | entry :: entries => do
    modify fun p => { p with resources := p.resources.insert entry.1 entry.2 }
    copyEntries entries

/-- Routes a value to the resources. -/
def toResources (type : TypeInfo) (raw : RawValue) : Routing Unit := do
  let p ← get
  let refused := .structural (.assignment (.resourcesNotKeyed type.name)) none
  match raw with
  | .text _ => throw refused
  | .object id =>
    if (p.graph.component? id).map (·.type.containerKind) = some .keyed then
      match (p.graph.component? id).bind (·.entries) with
      | some entries => copyEntries entries.toList
      | none => throw (.structural (.assignment (.noEntriesToShare (p.graph.typeName id))) none)
    else throw refused

/-- Writes to the store of an object, which may have none. -/
def writeStore (target : ObjectId) (refused : MarkupError)
    (write : PropertyStore → PropertyStore) : Routing Unit := do
  let p ← get
  match p.graph.component? target with
  | none => throw refused
  | some c =>
    match c.store with
    | none => throw refused
    | some store => set (p.update target { c with store := some (write store) })

/-- Routes the binding that a text spells to a managed property. -/
def toBinding (target : ObjectId) (type : TypeInfo) (name text : String) : Routing Unit := do
  match type.findManaged name with
  | none => throw (.notBindable type.name name)
  | some property =>
    let p ← get
    let binding ← MonadExcept.ofExcept (Pass.readBinding p.resources text)
    writeStore target (.notBindable type.name name) (·.setBinding property binding)

/-- Routes a value to a managed or a plain property. -/
def toProperty (target : ObjectId) (type : TypeInfo) (name : String) (raw : RawValue) :
    Routing Unit := do
  let p ← get
  match type.findManaged name, type.findPlain name with
  | some property, _ =>
    let value ← MonadExcept.ofExcept (p.coerceFor property.kind name raw)
    writeStore target (.structural (.assignment (.noStore type.name name)) none)
      (·.setValue property value)
  | none, some kind =>
    let value ← MonadExcept.ofExcept (p.coerceFor kind name raw)
    match p.graph.component? target with
    | none => pure ()
    | some c =>
      match c.toObjectState.setPlain name value with
      | .error error => throw (.plain error)
      | .ok state => set (p.update target { c with toObjectState := state })
  | none, none => throw (.propertyNotFound type.name name)

/-- Routes a raw value to the property `name` of an object whose declared type is `type`. -/
def route (target : ObjectId) (type : TypeInfo) (name : String) (raw : RawValue) : Routing Unit :=
  if name = "Resources" then toResources type raw
  else
    match raw with
    | .text text =>
      if Pass.isExpression text then toBinding target type name text
      else toProperty target type name raw
    | .object _ => toProperty target type name raw

/-! ## No write before a refusal -/

/-- The end of a program that has written all or nothing. -/
def allOrNothing (p : Pass) : Except MarkupError Pass → Except MarkupError Unit × Pass
  | .ok next => (.ok (), next)
  | .error error => (.error error, p)

theorem outcome_copyEntries (entries : List (String × ObjectId)) (p : Pass) :
    (copyEntries entries).outcome p =
      (.ok (), { p with resources := p.resources.insertAll entries }) := by
  induction entries generalizing p with
  | nil => rfl
  | cons entry entries ih =>
    have first : Routing.outcome (modify fun p : Pass =>
        { p with resources := p.resources.insert entry.1 entry.2 }) p =
        (.ok (), { p with resources := p.resources.insert entry.1 entry.2 }) := rfl
    rw [copyEntries, outcome_bind first, ih, OrderedMap.insertAll_cons]

theorem outcome_toResources (type : TypeInfo) (raw : RawValue) (p : Pass) :
    (toResources type raw).outcome p = allOrNothing p (p.assignResources type raw) := by
  unfold toResources Pass.assignResources
  rw [outcome_get_bind]
  cases raw with
  | text text => rfl
  | object id =>
    dsimp only
    split
    · unfold Pass.shareEntries
      cases (p.graph.component? id).bind (·.entries) with
      | none => rfl
      | some entries => exact outcome_copyEntries entries.toList p
    · rfl

theorem outcome_writeStore (target : ObjectId) (refused : MarkupError)
    (write : PropertyStore → PropertyStore) (p : Pass) :
    (writeStore target refused write).outcome p = allOrNothing p
      (match p.graph.component? target with
      | none => .error refused
      | some c =>
        match c.store with
        | none => .error refused
        | some store => .ok (p.update target { c with store := some (write store) })) := by
  unfold writeStore
  rw [outcome_get_bind]
  cases p.graph.component? target with
  | none => rfl
  | some c =>
    dsimp only
    cases c.store with
    | none => rfl
    | some store => rfl

theorem outcome_toBinding (target : ObjectId) (type : TypeInfo) (name text : String) (p : Pass) :
    (toBinding target type name text).outcome p =
      allOrNothing p (p.assignBinding target type name text) := by
  unfold toBinding Pass.assignBinding
  cases type.findManaged name with
  | none => rfl
  | some property =>
    dsimp only
    rw [outcome_get_bind, outcome_ofExcept_bind]
    cases Pass.readBinding p.resources text with
    | error error => rfl
    | ok binding => exact outcome_writeStore target _ _ p

theorem outcome_toProperty (target : ObjectId) (type : TypeInfo) (name : String) (raw : RawValue)
    (p : Pass) :
    (toProperty target type name raw).outcome p =
      allOrNothing p (p.assignValue target type name raw) := by
  unfold toProperty Pass.assignValue
  rw [outcome_get_bind]
  cases type.findManaged name with
  | some property =>
    dsimp only
    rw [outcome_ofExcept_bind]
    cases p.coerceFor property.kind name raw with
    | error error => rfl
    | ok value => exact outcome_writeStore target _ _ p
  | none =>
    cases type.findPlain name with
    | none => rfl
    | some kind =>
      dsimp only
      rw [outcome_ofExcept_bind]
      cases p.coerceFor kind name raw with
      | error error => rfl
      | ok value =>
        dsimp only
        unfold Pass.assignPlain
        cases p.graph.component? target with
        | none => rfl
        | some c =>
          dsimp only
          cases c.toObjectState.setPlain name value with
          | error error => rfl
          | ok state => rfl

/-- **No write comes before a refusal**: what routing changes as it goes is what `Pass.assign`
gives, and nothing if that is an error. -/
theorem outcome_route (target : ObjectId) (type : TypeInfo) (name : String) (raw : RawValue)
    (p : Pass) :
    (route target type name raw).outcome p = allOrNothing p (p.assign target type name raw) := by
  unfold route Pass.assign
  split
  · exact outcome_toResources type raw p
  · cases raw with
    | object id => exact outcome_toProperty target type name (.object id) p
    | text text =>
      dsimp only
      split
      · exact outcome_toBinding target type name text p
      · exact outcome_toProperty target type name (.text text) p

end Routing

/-! ## Lookups -/

/-- A plain property is the property of its name, where names are distinct. -/
theorem findProperty_of_findPlain {type : TypeInfo} {name : String} {kind : ValueKind}
    (hnodup : (type.allProperties.map (·.name)).Nodup) (h : type.findPlain name = some kind) :
    type.findProperty name = some (.plain name kind) := by
  unfold TypeInfo.findPlain at h
  unfold TypeInfo.findProperty
  generalize type.allProperties = properties at hnodup h ⊢
  induction properties with
  | nil => cases h
  | cons info rest ih =>
    rw [List.map_cons, List.nodup_cons] at hnodup
    rw [List.findSome?_cons] at h
    cases hinfo : info.plainKind? name with
    | some found =>
      rw [hinfo] at h
      cases h
      cases info with
      | managed property => cases hinfo
      | plain declared kind =>
        obtain ⟨rfl, rfl⟩ : declared = name ∧ _ := by simpa [PropertyInfo.plainKind?] using hinfo
        simp [PropertyInfo.name]
    | none =>
      rw [hinfo] at h
      have hfound := ih hnodup.2 h
      have hname : info.name ≠ name := by
        rintro rfl
        exact hnodup.1 (List.mem_map.mpr ⟨_, List.mem_of_find?_eq_some hfound, rfl⟩)
      rw [List.find?_cons_of_neg (by simpa using hname)]
      exact hfound

/-- The first character of a text that is not blank is an opening brace. -/
def OpensWithBrace (text : String) : Prop :=
  ∃ blanks rest, text.toList = blanks ++ '{' :: rest ∧ ∀ c ∈ blanks, Text.isBlank c = true

theorem isExpression_iff (text : String) : Pass.isExpression text = true ↔ OpensWithBrace text := by
  unfold Pass.isExpression OpensWithBrace
  rw [beq_iff_eq]
  constructor
  · intro h
    obtain ⟨rest, hrest⟩ := List.head?_eq_some_iff.mp h
    refine ⟨text.toList.takeWhile Text.isBlank, rest, ?_, fun c hc => List.mem_takeWhile_imp hc⟩
    rw [← hrest, Text.trimLeft, List.takeWhile_append_dropWhile]
  · rintro ⟨blanks, rest, hsplit, hblanks⟩
    rw [hsplit, Text.trimLeft_append_of_blank hblanks, Text.trimLeft,
      List.dropWhile_cons_of_neg (by decide)]
    rfl

/-! ## One write -/

/-- The kind of the values that an assignment to a property writes: that of the managed property of
the name, else that of the plain one. -/
def writtenKind? (type : TypeInfo) (name : String) : Option ValueKind :=
  ((type.findManaged name).map (·.kind)).or (type.findPlain name)

/-- An object with a binding in the store, and nothing else of it changed. -/
structure BindingWritten (name : String) (binding : Binding) (c after : Component) : Prop where
  rest : after = { c with store := after.store }
  binding : after.binding? name = some binding
  bindings : ∀ other, other ≠ name → after.binding? other = c.binding? other
  stored : after.store.map (·.values) = c.store.map (·.values)
  values : ∀ any, after.get? any = c.get? any

/-- An object with a value in a property that is managed or plain, and nothing else of it
changed. -/
structure ValueWritten (name : String) (value : Value) (managed : Prop) (c after : Component) :
    Prop where
  rest : after = { c with store := after.store, plainValues := after.plainValues }
  onlyManaged : managed → after.plainValues = c.plainValues
  onlyPlain : ¬ managed → after.store = c.store
  value : after.get? name = some value
  values : ∀ other, other ≠ name → after.get? other = c.get? other
  bindings : ∀ any, after.binding? any = c.binding? any

/-- What an accepted assignment to the property `name` of `target` writes, which is `c` before,
under the type `type`. -/
inductive Pass.OneWrite (p : Pass) (target : ObjectId) (c : Component) (type : TypeInfo)
    (name : String) (raw : RawValue) : Pass → Prop where
  | resources (container : ObjectId) (keyed : Component) (entries : OrderedMap ObjectId)
      (hname : name = "Resources") (hraw : raw = .object container)
      (hread : p.graph.component? container = some keyed)
      (hkeyed : keyed.type.containerKind = .keyed) (hentries : keyed.entries = some entries) :
      OneWrite p target c type name raw
        { p with resources := p.resources.insertAll entries.toList }
  | binding (text : String) (binding : Binding) (after : Component) (hname : name ≠ "Resources")
      (hraw : raw = .text text) (hbrace : OpensWithBrace text)
      (hmanaged : (type.findManaged name).isSome)
      (hbinding : Pass.readBinding p.resources text = .ok binding)
      (hwritten : BindingWritten name binding c after) :
      OneWrite p target c type name raw (p.update target after)
  | value (kind : ValueKind) (value : Value) (after : Component) (hname : name ≠ "Resources")
      (hbrace : ∀ text, raw = .text text → ¬ OpensWithBrace text)
      (hkind : writtenKind? type name = some kind)
      (hvalue : coerce p.graph.typeName kind name raw = .ok value)
      (hwritten : ValueWritten name value ((type.findManaged name).isSome) c after) :
      OneWrite p target c type name raw (p.update target after)

section Writes

variable {c : Component} {type : TypeInfo} {name : String}

theorem bindingWritten {store : PropertyStore} {property : ManagedProperty} (binding : Binding)
    (hstore : c.store = some store) (hname : property.name = name) :
    BindingWritten name binding c { c with store := some (store.setBinding property binding) } where
  rest := rfl
  binding := by simp [ObjectState.binding?, PropertyStore.binding?_setBinding, hname]
  bindings other hother := by
    simp [ObjectState.binding?, PropertyStore.binding?_setBinding, hstore, hname, Ne.symm hother]
  stored := by simp [hstore, PropertyStore.setBinding]
  values any := by simp [ObjectState.get?, ObjectState.plain?, hstore]

theorem valueWritten_managed {store : PropertyStore} {property : ManagedProperty} (value : Value)
    {managed : Prop} (hmanaged : managed) (hstore : c.store = some store)
    (hname : property.name = name) :
    ValueWritten name value managed c { c with store := some (store.setValue property value) } where
  rest := rfl
  onlyManaged _ := rfl
  onlyPlain h := absurd hmanaged h
  value := by simp [ObjectState.get?, PropertyStore.value?_setValue, hname]
  values other hother := by
    simp [ObjectState.get?, ObjectState.plain?, PropertyStore.value?_setValue, hstore, hname,
      Ne.symm hother]
  bindings any := by simp [ObjectState.binding?, hstore]

/-- A plain value is read back if the store does not hide it. -/
theorem valueWritten_plain {value : Value} {managed : Prop} (hmanaged : ¬ managed)
    (hhidden : c.store.bind (·.value? name) = none) :
    ValueWritten name value managed c
      { c with plainValues := c.plainValues.insert name value } where
  rest := rfl
  onlyManaged h := absurd h hmanaged
  onlyPlain _ := rfl
  value := by simp [ObjectState.get?, ObjectState.plain?, hhidden, OrderedMap.get?_insert]
  values other hother := by
    simp [ObjectState.get?, ObjectState.plain?, OrderedMap.get?_insert, Ne.symm hother]
  bindings any := rfl

end Writes

/-- The store of an object holds values under names of managed properties of its type only. -/
def StoresManaged (c : Component) : Prop :=
  ∀ store name value, c.store = some store → store.value? name = some value →
    ∃ property, c.type.findProperty name = some (.managed property)

section Assign

variable {p next : Pass} {target : ObjectId} {c : Component} {type : TypeInfo} {name : String}
  {raw : RawValue}

/-- No managed value hides a plain property that a base of the object's type declares. -/
theorem value?_eq_none_of_findPlain (hextends : c.type.Extends type)
    (hvalid : (c.type.allProperties.map (·.name)).Nodup) (hstores : StoresManaged c)
    {kind : ValueKind} (hplain : type.findPlain name = some kind) :
    c.store.bind (·.value? name) = none := by
  have hbase : (type.allProperties.map (·.name)).Nodup :=
    ((TypeInfo.allProperties_suffix hextends).sublist.map _).nodup hvalid
  have hfound : c.type.findProperty name = some (.plain name kind) :=
    TypeInfo.findProperty_of_extends hvalid hextends (findProperty_of_findPlain hbase hplain)
  cases hstore : c.store with
  | none => rfl
  | some store =>
    cases hvalue : store.value? name with
    | none => simpa using hvalue
    | some value =>
      obtain ⟨property, hmanaged⟩ := hstores store name value hstore hvalue
      rw [hfound] at hmanaged
      cases hmanaged

theorem oneWrite_of_assignResources (h : p.assignResources type raw = .ok next) :
    p.OneWrite target c type "Resources" raw next := by
  unfold Pass.assignResources at h
  cases raw with
  | text text => cases h
  | object container =>
    dsimp only at h
    split at h
    · next hkind =>
      obtain ⟨keyed, hread, hkeyed⟩ := Option.map_eq_some_iff.mp hkind
      unfold Pass.shareEntries at h
      rw [hread] at h
      cases hentries : keyed.entries with
      | none => simp [hentries] at h
      | some entries =>
        simp only [Option.bind_some, hentries] at h
        cases h
        exact .resources container keyed entries rfl rfl hread hkeyed hentries
    · cases h

/-- **An accepted assignment is one write**, to an object whose type derives from the declared one
and declares each property once, and whose store holds values of its managed properties. -/
theorem oneWrite_of_assign (hread : p.graph.component? target = some c)
    (hextends : c.type.Extends type) (hvalid : (c.type.allProperties.map (·.name)).Nodup)
    (hstores : StoresManaged c) (h : p.assign target type name raw = .ok next) :
    p.OneWrite target c type name raw next := by
  have hopen : (∀ text, raw = .text text → Pass.isExpression text = false) →
      ∀ text, raw = .text text → ¬ OpensWithBrace text := by
    intro htext text hraw hbrace
    have hexpression := (isExpression_iff text).mpr hbrace
    rw [htext text hraw] at hexpression
    cases hexpression
  cases Pass.assigned_of_assign h with
  | shared container entries hname hraw hentries =>
    subst hname
    exact oneWrite_of_assignResources h
  | bound d store property binding text hname hraw htext hfind hbinding hthere hstore =>
    cases hread.symm.trans hthere
    exact .binding text binding _ hname hraw ((isExpression_iff text).mp htext)
      (by simp [hfind]) hbinding
      (bindingWritten binding hstore (TypeInfo.name_of_findManaged hfind))
  | managed d store property value hname htext hfind hvalue hthere hstore =>
    cases hread.symm.trans hthere
    exact .value property.kind value _ hname (hopen htext)
      (by simp [writtenKind?, hfind]) hvalue (valueWritten_managed value (by simp [hfind]) hstore
        (TypeInfo.name_of_findManaged hfind))
  | plain d state kind value hname htext hfind hplain hvalue hthere hwrite =>
    cases hread.symm.trans hthere
    cases Pass.setPlain_eq_ok hwrite
    exact .value kind value _ hname (hopen htext) (by simp [writtenKind?, hfind, hplain]) hvalue
      (valueWritten_plain (by simp [hfind])
        (value?_eq_none_of_findPlain hextends hvalid hstores hplain))
  | dangling kind hname hfind hplain hgone =>
    rw [hread] at hgone
    cases hgone

end Assign

/-- **An assignment is atomic and writes one slot.** The object `target` is of a type that derives
from `type` and declares each property once, and its store holds values of its managed properties.
Carried out step by step, an assignment that is refused has changed nothing in the pass, and one
that is accepted has changed the resources, or one binding, or one value of `target`. `Pass.assign`
gives the same. -/
theorem route_atomic {p : Pass} {target : ObjectId} {c : Component} {type : TypeInfo}
    (hread : p.graph.component? target = some c) (hextends : c.type.Extends type)
    (hvalid : (c.type.allProperties.map (·.name)).Nodup) (hstores : StoresManaged c) (name : String)
    (raw : RawValue) :
    match (Routing.route target type name raw).outcome p with
    | (.error error, after) => after = p ∧ p.assign target type name raw = .error error
    | (.ok (), after) =>
      p.OneWrite target c type name raw after ∧ p.assign target type name raw = .ok after := by
  rw [Routing.outcome_route]
  cases h : p.assign target type name raw with
  | error error => exact ⟨rfl, rfl⟩
  | ok next => exact ⟨oneWrite_of_assign hread hextends hvalid hstores h, rfl⟩

/-- A pass over one new label. -/
def labelPass : Pass :=
  .start ⟨#[{ Forms.newLabel with type := Forms.label }]⟩ (.ofCatalog Forms.catalog none)

/-- A place for a view in its line is written through a base of the label's type, a place that does
not exist is refused. -/
theorem route_atomic_label :
    (∃ after, (Routing.route ⟨0⟩ Forms.viewType "HorizontalOptions" (.text "End")).outcome
      labelPass =
        (.ok (), after) ∧
      after.graph.get? ⟨0⟩ "HorizontalOptions" = some (.enum "End") ∧
      after.graph.get? ⟨0⟩ "XAlign" = some (.enum "Start")) ∧
    ∃ error, (Routing.route ⟨0⟩ Forms.viewType "HorizontalOptions" (.text "Sideways")).outcome
      labelPass = (.error error, labelPass) := by
  have hread : labelPass.graph.component? ⟨0⟩ = some { Forms.newLabel with type := Forms.label } :=
    rfl
  have hextends : Forms.label.Extends Forms.viewType := ⟨[Forms.label.toTypeDecl], rfl⟩
  have hatomic : ∀ text, _ := fun text =>
    route_atomic hread hextends (by decide)
      (fun store name value hstore hvalue => by cases hstore; cases hvalue) "HorizontalOptions"
      (.text text)
  constructor
  · have hend := hatomic "End"
    have haccepted : ∃ next, labelPass.assign ⟨0⟩ Forms.viewType "HorizontalOptions" (.text "End") =
        .ok next :=
      ⟨_, rfl⟩
    obtain ⟨next, hnext⟩ := haccepted
    split at hend
    · next error after hroute =>
      rw [hnext] at hend
      cases hend.2
    · next after hroute =>
      refine ⟨after, hroute, ?_⟩
      cases hend.1 with
      | resources _ _ _ hname => exact absurd hname (by decide)
      | binding text _ _ _ hraw hbrace =>
        cases hraw
        exact absurd ((isExpression_iff "End").mpr hbrace) (by decide +kernel)
      | value kind value written _ _ hkind hvalue hwritten =>
        cases hkind
        cases hvalue
        exact ⟨hwritten.value, hwritten.values "XAlign" (by decide)⟩
  · have hrefused := hatomic "Sideways"
    have herror : ∃ error, labelPass.assign ⟨0⟩ Forms.viewType "HorizontalOptions"
      (.text "Sideways") = .error error := ⟨_, rfl⟩
    obtain ⟨error, herror⟩ := herror
    split at hrefused
    · next error after hroute =>
      obtain ⟨rfl, -⟩ := hrefused
      exact ⟨error, hroute⟩
    · next after hroute =>
      rw [herror] at hrefused
      cases hrefused.2

end MarkupForms.Hydration
