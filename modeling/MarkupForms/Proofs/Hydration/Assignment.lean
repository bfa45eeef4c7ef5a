import MarkupForms.Hydration.Assembly

/-!
# What one write does

Everything that an assignment or an insertion can do to a pass, once: an assignment that is accepted
is one of five (`Pass.Assigned`), an insertion is one of three (`Pass.Inserted`).
-/

namespace MarkupForms

/-- Whether a plain value is taken under a name. -/
def PlainAccess.Accepts : PlainAccess → String → Value → Prop
  | .anything, _, _ => True
  | .fields _ known, name, value => ∃ field, known.find? (·.name == name) = some field ∧
      field.accepts value = true

/-- A plain write is taken or not by the fields of the object, and changes one value. -/
theorem ObjectState.setPlain_eq_ok_iff {state written : ObjectState} {name : String}
    {value : Value} :
    state.setPlain name value = .ok written ↔
      state.plainAccess.Accepts name value ∧
        written = { state with plainValues := state.plainValues.insert name value } := by
  unfold setPlain PlainAccess.Accepts
  dsimp only
  cases state.plainAccess with
  | anything =>
    exact ⟨fun h => ⟨trivial, (Except.ok.inj h).symm⟩, fun h => congrArg Except.ok h.2.symm⟩
  | fields owner known =>
    dsimp only
    cases known.find? (·.name == name) with
    | none => simp
    | some field =>
      by_cases haccepts : field.accepts value = true
      · simp only [haccepts, if_true, Except.ok.injEq, Option.some.injEq, exists_eq_left',
          true_and, eq_comm]
      · simp [haccepts]

namespace Hydration

namespace Pass

/-! ## Assignments -/

/-- A plain property that takes a value changes nothing but its own value. -/
theorem setPlain_eq_ok {state written : ObjectState} {value : Value}
    (h : state.setPlain name value = .ok written) :
    written = { state with plainValues := state.plainValues.insert name value } :=
  (ObjectState.setPlain_eq_ok_iff.1 h).2

/-- The ways in which a value is assigned to the property `name` of `target`, under the type
`type`. -/
inductive Assigned (p : Pass) (target : ObjectId) (type : TypeInfo) (name : String)
    (raw : RawValue) :
    Pass → Prop where
  /-- The entries of a keyed container become resources; no object changes. -/
  | shared (container : ObjectId) (entries : List (String × ObjectId)) (hname : name = "Resources")
      (hraw : raw = .object container)
      (hentries : (p.graph.component? container).bind (·.entries) = some ⟨entries⟩) :
      Assigned p target type name raw { p with resources := p.resources.insertAll entries }
  | bound (c : Component) (store : PropertyStore) (property : ManagedProperty) (binding : Binding)
      (text : String) (hname : name ≠ "Resources") (hraw : raw = .text text)
      (htext : isExpression text = true) (hfind : type.findManaged name = some property)
      (hbinding : readBinding p.resources text = .ok binding)
      (hread : p.graph.component? target = some c) (hstore : c.store = some store) :
      Assigned p target type name raw
        (p.update target { c with store := some (store.setBinding property binding) })
  | managed (c : Component) (store : PropertyStore) (property : ManagedProperty) (value : Value)
      (hname : name ≠ "Resources") (htext : ∀ text, raw = .text text → isExpression text = false)
      (hfind : type.findManaged name = some property)
      (hvalue : coerce p.graph.typeName property.kind name raw = .ok value)
      (hread : p.graph.component? target = some c) (hstore : c.store = some store) :
      Assigned p target type name raw
        (p.update target { c with store := some (store.setValue property value) })
  | plain (c : Component) (state : ObjectState) (kind : ValueKind) (value : Value)
      (hname : name ≠ "Resources") (htext : ∀ text, raw = .text text → isExpression text = false)
      (hfind : type.findManaged name = none) (hplain : type.findPlain name = some kind)
      (hvalue : coerce p.graph.typeName kind name raw = .ok value)
      (hread : p.graph.component? target = some c)
      (hwrite : c.toObjectState.setPlain name value = .ok state) :
      Assigned p target type name raw (p.update target { c with toObjectState := state })
  /-- A plain property of an object that the graph does not hold. -/
  | dangling (kind : ValueKind) (hname : name ≠ "Resources")
      (hfind : type.findManaged name = none) (hplain : type.findPlain name = some kind)
      (hread : p.graph.component? target = none) : Assigned p target type name raw p

section Assign

variable {p next : Pass} {target : ObjectId} {type : TypeInfo} {name : String} {raw : RawValue}

theorem Assigned.resolver (h : p.Assigned target type name raw next) :
    next.resolver = p.resolver := by
  cases h <;> rfl

theorem Assigned.keys (h : p.Assigned target type name raw next) : next.keys = p.keys := by
  cases h <;> rfl

theorem coerce_of_coerceFor {kind : ValueKind} {value : Value}
    (h : p.coerceFor kind name raw = .ok value) :
    coerce p.graph.typeName kind name raw = .ok value := by
  unfold coerceFor at h
  cases hcoerce : coerce p.graph.typeName kind name raw with
  | error fault => rw [hcoerce] at h; cases h
  | ok found => rw [hcoerce] at h; cases h; rfl

theorem assigned_of_assignResources (h : p.assignResources type raw = .ok next) :
    p.Assigned target type "Resources" raw next := by
  unfold assignResources at h
  split at h
  · cases h
  · next container =>
    split at h
    · unfold shareEntries at h
      split at h
      · next hentries => cases h; exact .shared container _ rfl rfl hentries
      · cases h
    · cases h

theorem assigned_of_assignBinding {text : String} (hname : name ≠ "Resources")
    (htext : isExpression text = true)
    (h : p.assignBinding target type name text = .ok next) :
    p.Assigned target type name (.text text) next := by
  unfold assignBinding at h
  cases hfind : type.findManaged name with
  | none => rw [hfind] at h; cases h
  | some property =>
    cases hbinding : readBinding p.resources text with
    | error error => simp only [hfind, hbinding] at h; cases h
    | ok binding =>
      cases hread : p.graph.component? target with
      | none => simp only [hfind, hbinding, hread] at h; cases h
      | some c =>
        cases hstore : c.store with
        | none => simp only [hfind, hbinding, hread, hstore] at h; cases h
        | some store =>
          simp only [hfind, hbinding, hread, hstore] at h
          cases h
          exact .bound c store property binding text hname rfl htext hfind hbinding hread hstore

theorem assigned_of_assignValue (hname : name ≠ "Resources")
    (htext : ∀ text, raw = .text text → isExpression text = false)
    (h : p.assignValue target type name raw = .ok next) : p.Assigned target type name raw next := by
  unfold assignValue at h
  cases hfind : type.findManaged name with
  | some property =>
    cases hvalue : p.coerceFor property.kind name raw with
    | error error => simp only [hfind, hvalue] at h; cases h
    | ok value =>
      simp only [hfind, hvalue] at h
      unfold assignManaged at h
      cases hread : p.graph.component? target with
      | none => simp only [hread] at h; cases h
      | some c =>
        cases hstore : c.store with
        | none => simp only [hread, hstore] at h; cases h
        | some store =>
          simp only [hread, hstore] at h
          cases h
          exact .managed c store property value hname htext hfind (coerce_of_coerceFor hvalue) hread
            hstore
  | none =>
    cases hplain : type.findPlain name with
    | none => simp only [hfind, hplain] at h; cases h
    | some kind =>
      cases hvalue : p.coerceFor kind name raw with
      | error error => simp only [hfind, hplain, hvalue] at h; cases h
      | ok value =>
        simp only [hfind, hplain, hvalue] at h
        -- unlike the other two, a plain write to an object that is not there is no error
        unfold assignPlain at h
        cases hread : p.graph.component? target with
        | none =>
          simp only [hread] at h
          cases h
          exact .dangling kind hname hfind hplain hread
        | some c =>
          cases hwrite : c.toObjectState.setPlain name value with
          | error error => simp only [hread, hwrite] at h; cases h
          | ok state =>
            simp only [hread, hwrite] at h
            cases h
            exact .plain c state kind value hname htext hfind hplain
              (coerce_of_coerceFor hvalue) hread hwrite

/-- **An accepted assignment is one of the five.** -/
theorem assigned_of_assign (h : p.assign target type name raw = .ok next) :
    p.Assigned target type name raw next := by
  unfold assign at h
  split at h
  · next hname => subst hname; exact assigned_of_assignResources h
  · next hname =>
    cases raw with
    | object child => exact assigned_of_assignValue hname (fun _ h => by cases h) h
    | text text =>
      dsimp only at h
      split at h
      · next htext => exact assigned_of_assignBinding hname htext h
      · next htext =>
        refine assigned_of_assignValue hname (fun object hobject => ?_) h
        cases hobject
        simpa using htext

end Assign

/-! ## Insertions -/

/-- The ways in which a child is inserted into `target`, under the type `type`. -/
inductive Inserted (p : Pass) (target : ObjectId) (type : TypeInfo) (child : ObjectId) :
    Outcome Unit → Prop where
  | item (c : Component) (items : List ObjectId) (hkind : type.containerKind = .items)
      (hread : p.graph.component? target = some c) (hitems : c.items = some items) :
      Inserted p target type child
        (.ok (), p.update target { c with items := some (items ++ [child]) })
  | entry (c : Component) (entries : OrderedMap ObjectId) (key : String) (resources : ResourceTable)
      (hkind : type.containerKind = .keyed) (hkey : p.keys.key? child = some key)
      (hread : p.graph.component? target = some c) (hentries : c.entries = some entries)
      (hresources : resources = p.resources.insert key child) :
      Inserted p target type child
        (.ok (), { p.update target { c with entries := some (entries.insert key child) } with
          keys := p.keys.erase child
          resources := resources })
  /-- The child's key may be gone all the same; no object changes. -/
  | refused (error : MarkupError) (keys : KeyTable)
      (hkeys : keys = p.keys ∨ keys = p.keys.erase child) :
      Inserted p target type child (.error error, { p with keys := keys })

theorem inserted_insertChild (p : Pass) (target : ObjectId) (type : TypeInfo) (child : ObjectId) :
    p.Inserted target type child (p.insertChild target type child) := by
  unfold insertChild
  cases hkind : type.containerKind with
  | none => exact .refused _ p.keys (.inl rfl)
  | items =>
    simp only [appendItem]
    cases hread : p.graph.component? target with
    | none => exact .refused _ p.keys (.inl rfl)
    | some c =>
      cases hitems : c.items with
      | none => simp only [hitems]; exact .refused _ p.keys (.inl rfl)
      | some items => simp only [hitems]; exact .item c items hkind hread hitems
  | keyed =>
    simp only [insertEntry]
    cases hkey : p.keys.key? child with
    | none => exact .refused _ p.keys (.inl rfl)
    | some key =>
      cases hread : p.graph.component? target with
      -- from here on the child's key is taken, also when the insertion fails
      | none => exact .refused _ (p.keys.erase child) (.inr rfl)
      | some c =>
        cases hentries : c.entries with
        | none => simp only [hentries]; exact .refused _ (p.keys.erase child) (.inr rfl)
        | some entries =>
          simp only [hentries]
          exact .entry c entries key _ hkind hkey hread hentries rfl

end Pass

end Hydration

end MarkupForms
