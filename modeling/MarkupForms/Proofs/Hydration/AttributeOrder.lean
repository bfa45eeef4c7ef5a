import Mathlib.Data.List.Perm.Basic
import Mathlib.Data.List.Pairwise
import Mathlib.Logic.Function.Basic
import MarkupForms.Proofs.Hydration.Coercion
import MarkupForms.Proofs.Hydration.LastWrite

/-!
# The order of attributes

An attribute stands for one setting of the object that it is applied to: a value, a binding, a plain
value, a key, or nothing (`Stands`). Which one it is, and whether it is any at all, depends on the
type, on the resources and on what the object can hold. None of these is changed by a setting, so a
list of attributes is accepted if each of its members would be accepted alone, and has the effect of
all their settings one after the other (`applyAttributes_eq_ok_iff`).

Settings of different things commute as far as lookups can tell (`Setting.onView_comm`). So
attributes of which no two set the same thing may stand in any order; and attributes that set
nothing may stand anywhere.
-/

namespace MarkupForms

open Markup

/-- An object with nothing in its store and its fields: its capabilities, and what is inside it. -/
def Component.emptied (c : Component) : Component :=
  { c with store := c.store.map fun _ => .empty, plainValues := .empty }

namespace Hydration

/-! ## Settings -/

/-- What an attribute sets. -/
inductive Setting where
  | value (property : ManagedProperty) (value : Value)
  | binding (property : ManagedProperty) (binding : Binding)
  | plain (name : String) (value : Value)
  | key (key : String)
  | nothing

namespace Setting

/-- The object behind a setting. -/
def onObject : Setting → Component → Component
  | .value property given, c => { c with store := c.store.map (·.setValue property given) }
  | .binding property attached, c =>
    { c with store := c.store.map (·.setBinding property attached) }
  | .plain name given, c => { c with plainValues := c.plainValues.insert name given }
  | .key _, c | .nothing, c => c

/-- The keys behind a setting of the object `target`. -/
def onKeys (target : ObjectId) : Setting → KeyTable → KeyTable
  | .key declared, keys => keys.declare target declared
  | .value _ _, keys | .binding _ _, keys | .plain _ _, keys | .nothing, keys => keys

/-- The pass behind a setting of the object `target`. -/
def write (target : ObjectId) (setting : Setting) (p : Pass) : Pass :=
  { p with graph := p.graph.modify target setting.onObject, keys := setting.onKeys target p.keys }

/-- The role of the attributes that make a setting. -/
def role : Setting → Pass.AttributeRole
  | .value property _ | .binding property _ => .property property.name
  | .plain name _ => .property name
  | .key _ => .key
  | .nothing => .ignored

theorem emptied_onObject (setting : Setting) (c : Component) :
    (setting.onObject c).emptied = c.emptied := by
  cases setting with
  | value property value =>
    simp only [onObject, Component.emptied, Option.map_map, Function.comp_def]
  | binding property binding =>
    simp only [onObject, Component.emptied, Option.map_map, Function.comp_def]
  | plain | key | nothing => rfl

/-- A setting leaves the capabilities of the object as they are. -/
theorem emptied_write (target : ObjectId) (setting : Setting) (p : Pass) :
    ((setting.write target p).graph.component? target).map Component.emptied =
      (p.graph.component? target).map Component.emptied := by
  rw [write, Graph.component?_modify, if_pos rfl, Option.map_map]
  exact congrArg (Option.map · _) (funext setting.emptied_onObject)

theorem write_nothing (target : ObjectId) (p : Pass) : Setting.nothing.write target p = p := by
  show { p with graph := p.graph.modify target fun c => c } = p
  rw [Graph.modify_self]

theorem write_key (target : ObjectId) (key : String) (p : Pass) :
    (Setting.key key).write target p = { p with keys := p.keys.declare target key } := by
  show { p with graph := p.graph.modify target fun c => c, keys := p.keys.declare target key } = _
  rw [Graph.modify_self]

end Setting

/-! ## Attributes and their settings -/

/-- A list in which each member is related to something is related to a list of such things. -/
theorem exists_forall₂_iff {α β : Type} {R : α → β → Prop} {as : List α} :
    (∃ bs, List.Forall₂ R as bs) ↔ ∀ a ∈ as, ∃ b, R a b := by
  induction as with
  | nil => exact ⟨fun _ _ h => absurd h List.not_mem_nil, fun _ => ⟨[], .nil⟩⟩
  | cons a as ih =>
    rw [List.forall_mem_cons, ← ih]
    constructor
    · rintro ⟨bs, hall⟩
      cases hall with
      | cons hfirst hrest => exact ⟨⟨_, hfirst⟩, _, hrest⟩
    · rintro ⟨⟨b, hfirst⟩, bs, hrest⟩
      exact ⟨b :: bs, .cons hfirst hrest⟩

open Pass in
/-- Which setting an attribute stands for: under the declared type `type`, with the resources that
there are, on an object of which no more than what it can hold is looked at. -/
inductive Stands (resources : ResourceTable) (object : Option Component) (type : TypeInfo)
    (attr : Attribute) :
    Setting → Prop
  | ignored (hrole : roleOf attr.name = .ignored) : Stands resources object type attr .nothing
  | key (hrole : roleOf attr.name = .key) : Stands resources object type attr (.key attr.value)
  | binding {name : String} {property : ManagedProperty} {binding : Binding}
      (hrole : roleOf attr.name = .property name) (hname : name ≠ "Resources")
      (htext : isExpression attr.value = true) (hfind : type.findManaged name = some property)
      (hread : readBinding resources attr.value = .ok binding)
      (hstore : ∃ c, object = some c ∧ c.store.isSome = true) :
      Stands resources object type attr (.binding property binding)
  | value {name : String} {property : ManagedProperty} {value : Value}
      (hrole : roleOf attr.name = .property name) (hname : name ≠ "Resources")
      (htext : isExpression attr.value = false) (hfind : type.findManaged name = some property)
      (hread : readValue? property.kind attr.value = some value)
      (hstore : ∃ c, object = some c ∧ c.store.isSome = true) :
      Stands resources object type attr (.value property value)
  | plain {name : String} {kind : ValueKind} {value : Value}
      (hrole : roleOf attr.name = .property name) (hname : name ≠ "Resources")
      (htext : isExpression attr.value = false) (hfind : type.findManaged name = none)
      (hplain : type.findPlain name = some kind) (hread : readValue? kind attr.value = some value)
      (haccepts : ∀ c, object = some c → c.plainAccess.Accepts name value) :
      Stands resources object type attr (.plain name value)

section Attributes

variable {p next : Pass} {object : ObjectId} {type : TypeInfo} {attr : Attribute}
  {setting : Setting} {resources : ResourceTable} {target : Option Component}

theorem Stands.role_eq (h : Stands resources target type attr setting) :
    setting.role = Pass.roleOf attr.name := by
  cases h with
  | ignored hrole | key hrole => exact hrole.symm
  | plain hrole => exact hrole.symm
  | binding hrole _ _ hfind | value hrole _ _ hfind =>
    rw [hrole, ← TypeInfo.name_of_findManaged hfind]
    rfl

/-- A plain property of an object that is not there takes what can be read, and keeps nothing. -/
theorem exists_readValue?_of_dangling {name : String} {kind : ValueKind} {text : String}
    (hname : name ≠ "Resources") (hfind : type.findManaged name = none)
    (hplain : type.findPlain name = some kind) (hread : p.graph.component? object = none)
    (h : p.assign object type name (.text text) = .ok next) :
    Pass.isExpression text = false ∧ next = p ∧ ∃ value, readValue? kind text = some value := by
  unfold Pass.assign at h
  rw [if_neg hname] at h
  dsimp only at h
  split at h
  · simp only [Pass.assignBinding, hfind] at h
    cases h
  · next htext =>
    simp only [Pass.assignValue, hfind, hplain] at h
    cases hvalue : p.coerceFor kind name (.text text) with
    | error error =>
      rw [hvalue] at h
      cases h
    | ok value =>
      simp only [hvalue, Pass.assignPlain, hread] at h
      cases h
      exact ⟨Bool.eq_false_iff.2 htext, rfl, value, coerceFor_text_eq_ok_iff.1 hvalue⟩

/-- An accepted attribute stands for a setting and has its effect. -/
theorem exists_stands_of_assign {name : String} (hrole : Pass.roleOf attr.name = .property name)
    (h : p.assign object type name (.text attr.value) = .ok next) :
    ∃ setting, Stands p.resources ((p.graph.component? object).map Component.emptied) type attr
      setting ∧
      next = setting.write object p := by
  cases Pass.assigned_of_assign h with
  | shared _ _ _ hraw => cases hraw
  | bound c store property binding text hname hraw htext hfind hbinding hread hstore =>
    cases hraw
    refine ⟨.binding property binding, .binding hrole hname htext hfind hbinding
      ⟨_, by rw [hread]; rfl, ?_⟩, ?_⟩
    · simp [Component.emptied, hstore]
    · simp [Setting.write, Setting.onObject, Setting.onKeys, Graph.modify_of_component? hread,
        hstore, Pass.update]
  | managed c store property value hname htext hfind hvalue hread hstore =>
    refine ⟨.value property value, .value hrole hname (htext _ rfl) hfind
      (coerce_text_eq_ok_iff.1 hvalue) ⟨_, by rw [hread]; rfl, ?_⟩, ?_⟩
    · simp [Component.emptied, hstore]
    · simp [Setting.write, Setting.onObject, Setting.onKeys, Graph.modify_of_component? hread,
        hstore, Pass.update]
  | plain c state kind value hname htext hfind hplain hvalue hread hwrite =>
    refine ⟨.plain name value, .plain hrole hname (htext _ rfl) hfind hplain
      (coerce_text_eq_ok_iff.1 hvalue)
      fun written hwritten => ?_, ?_⟩
    · rw [hread] at hwritten
      cases hwritten
      exact (ObjectState.setPlain_eq_ok_iff.1 hwrite).1
    · simp [Setting.write, Setting.onObject, Setting.onKeys, Graph.modify_of_component? hread,
        Pass.update, Pass.setPlain_eq_ok hwrite]
  | dangling kind hname hfind hplain hread =>
    obtain ⟨htext, -, value, hvalue⟩ := exists_readValue?_of_dangling hname hfind hplain hread h
    refine ⟨.plain name value, .plain hrole hname htext hfind hplain hvalue
      fun written hwritten => ?_, ?_⟩
    · rw [hread] at hwritten
      cases hwritten
    · simp [Setting.write, Setting.onKeys, Graph.modify_of_none hread]

theorem exists_store
    (h : ∃ c, (p.graph.component? object).map Component.emptied = some c ∧ c.store.isSome = true) :
    ∃ c store, p.graph.component? object = some c ∧ c.store = some store := by
  obtain ⟨emptied, hemptied, hstore⟩ := h
  obtain ⟨c, hread, rfl⟩ := Option.map_eq_some_iff.1 hemptied
  rw [Component.emptied, Option.isSome_map] at hstore
  obtain ⟨store, hsome⟩ := Option.isSome_iff_exists.1 hstore
  exact ⟨c, store, hread, hsome⟩

/-- An attribute is accepted if it stands for a setting, and then it has the effect of that
setting. -/
theorem applyAttribute_eq_ok_iff :
    p.applyAttribute object type attr = .ok next ↔
      ∃ setting, Stands p.resources ((p.graph.component? object).map Component.emptied) type attr
        setting ∧
        next = setting.write object p := by
  unfold Pass.applyAttribute
  constructor
  · intro h
    cases hrole : Pass.roleOf attr.name with
    | ignored =>
      rw [hrole] at h
      cases h
      exact ⟨.nothing, .ignored hrole, by rw [Setting.write_nothing]⟩
    | key =>
      rw [hrole] at h
      cases h
      exact ⟨.key attr.value, .key hrole, by rw [Setting.write_key]⟩
    | property name =>
      rw [hrole] at h
      exact exists_stands_of_assign hrole h
  · rintro ⟨setting, hstands, rfl⟩
    cases hstands with
    | ignored hrole => rw [hrole, Setting.write_nothing]
    | key hrole => rw [hrole, Setting.write_key]
    | binding hrole hname htext hfind hread hstore =>
      obtain ⟨c, store, hthere, hkept⟩ := exists_store hstore
      simp [hrole, Pass.assign, hname, htext, Pass.assignBinding, hfind, hread, hthere, hkept,
        Setting.write,
        Setting.onObject, Setting.onKeys, Graph.modify_of_component? hthere, Pass.update]
    | value hrole hname htext hfind hread hstore =>
      obtain ⟨c, store, hthere, hkept⟩ := exists_store hstore
      simp [hrole, Pass.assign, hname, htext, Pass.assignValue, hfind,
        coerceFor_text_eq_ok_iff.2 hread,
        Pass.assignManaged, hthere, hkept, Setting.write, Setting.onObject, Setting.onKeys,
        Graph.modify_of_component? hthere, Pass.update]
    | @plain name kind value hrole hname htext hfind hplain hread haccepts =>
      cases hthere : p.graph.component? object with
      | none =>
        simp [hrole, Pass.assign, hname, htext, Pass.assignValue, hfind, hplain,
          coerceFor_text_eq_ok_iff.2 hread,
          Pass.assignPlain, hthere, Setting.write, Setting.onKeys, Graph.modify_of_none hthere]
      | some c =>
        have htakes : c.toObjectState.plainAccess.Accepts name value :=
          haccepts c.emptied (by rw [hthere]; rfl)
        have hwrite := ObjectState.setPlain_eq_ok_iff.2 ⟨htakes, rfl⟩
        simp [hrole, Pass.assign, hname, htext, Pass.assignValue, hfind, hplain,
          coerceFor_text_eq_ok_iff.2 hread,
          Pass.assignPlain, hthere, hwrite, Setting.write, Setting.onObject, Setting.onKeys,
          Graph.modify_of_component? hthere, Pass.update]

/-- A list of attributes is accepted if each of them stands for a setting at the beginning, and then
these are made one after the other. -/
theorem applyAttributes_eq_ok_iff {attrs : List Attribute} :
    p.applyAttributes object type attrs = (.ok (), next) ↔
      ∃ settings, List.Forall₂ (Stands p.resources
        ((p.graph.component? object).map Component.emptied) type) attrs
          settings ∧ next = settings.foldl (fun p setting => setting.write object p) p := by
  induction attrs generalizing p with
  | nil =>
    constructor
    · intro h
      cases h
      exact ⟨[], .nil, rfl⟩
    · rintro ⟨settings, hall, rfl⟩
      cases hall
      rfl
  | cons attr attrs ih =>
    rw [Pass.applyAttributes]
    constructor
    · intro h
      cases hattr : p.applyAttribute object type attr with
      | error error =>
        rw [hattr] at h
        cases h
      | ok between =>
        rw [hattr] at h
        obtain ⟨setting, hstands, rfl⟩ := applyAttribute_eq_ok_iff.1 hattr
        obtain ⟨settings, hall, rfl⟩ := ih.1 h
        -- what the others stand for does not depend on the first one
        rw [Setting.emptied_write] at hall
        exact ⟨setting :: settings, .cons hstands hall, rfl⟩
    · rintro ⟨settings, hall, rfl⟩
      cases hall with
      | @cons _ setting _ settings hstands hall =>
        rw [applyAttribute_eq_ok_iff.2 ⟨setting, hstands, rfl⟩]
        refine ih.2 ⟨settings, ?_, rfl⟩
        rw [Setting.emptied_write]
        exact hall

/-- Whether a list of attributes is accepted does not depend on what they do to each other. -/
theorem applyAttributes_accepted_iff {attrs : List Attribute} :
    (p.applyAttributes object type attrs).1 = .ok () ↔
      ∀ attr ∈ attrs, ∃ next, p.applyAttribute object type attr = .ok next := by
  have heach : ∀ attr, (∃ next, p.applyAttribute object type attr = .ok next) ↔
      ∃ setting, Stands p.resources ((p.graph.component? object).map Component.emptied) type attr
        setting := by
    intro attr
    constructor
    · rintro ⟨next, hnext⟩
      obtain ⟨setting, hstands, -⟩ := applyAttribute_eq_ok_iff.1 hnext
      exact ⟨setting, hstands⟩
    · rintro ⟨setting, hstands⟩
      exact ⟨_, applyAttribute_eq_ok_iff.2 ⟨setting, hstands, rfl⟩⟩
  simp only [heach, ← exists_forall₂_iff]
  constructor
  · intro h
    obtain ⟨settings, hall, -⟩ := applyAttributes_eq_ok_iff.1 (Prod.ext h rfl)
    exact ⟨settings, hall⟩
  · rintro ⟨settings, hall⟩
    exact congrArg Prod.fst (applyAttributes_eq_ok_iff.2 ⟨settings, hall, rfl⟩)

end Attributes

/-! ## What lookups show -/

/-- A pass as lookups show it, with an object in view: the values, bindings and plain values of the
object by what is found under each name, in whatever order they are listed, and all the rest as it
is. -/
structure View where
  values : Option (String → Option Value)
  bindings : Option (String → Option BoundProperty)
  plain : Option (String → Option Value)
  /-- The object without the contents of its store and its fields. -/
  emptied : Option Component
  others : ObjectId → Option Component
  size : Nat
  keys : KeyTable
  resources : ResourceTable
  resolver : Resolver

/-- The pass with the object `target` in view. -/
def Pass.view (p : Pass) (target : ObjectId) : View where
  values := (p.graph.component? target).bind fun c => c.store.map PropertyStore.value?
  bindings := (p.graph.component? target).bind fun c => c.store.map fun store => store.bindings.get?
  plain := (p.graph.component? target).map fun c => c.plain?
  emptied := (p.graph.component? target).map Component.emptied
  others other := if other = target then none else p.graph.component? other
  size := p.graph.size
  keys := p.keys
  resources := p.resources
  resolver := p.resolver

namespace Setting

/-- The view behind a setting of the object `target`. -/
def onView (target : ObjectId) : Setting → View → View
  | .value property given, view =>
    { view with values := view.values.map (Function.update · property.name (some given)) }
  | .binding property attached, view =>
    { view with bindings :=
      view.bindings.map (Function.update · property.name (some ⟨property, attached⟩)) }
  | .plain name given, view =>
    { view with plain := view.plain.map (Function.update · name (some given)) }
  | .key declared, view => { view with keys := view.keys.declare target declared }
  | .nothing, view => view

/-- Settings of different things may be made in either order. -/
theorem onView_comm {target : ObjectId} {setting other : Setting}
    (h : setting.role = .ignored ∨ setting.role ≠ other.role) (view : View) :
    other.onView target (setting.onView target view) =
      setting.onView target (other.onView target view) := by
  have hnames {name second : String} (hroles : Pass.AttributeRole.property name = .ignored ∨
      Pass.AttributeRole.property name ≠ .property second) : name ≠ second := by
    rintro rfl
    rcases hroles with hroles | hroles
    · cases hroles
    · exact hroles rfl
  cases setting with
  | nothing => rfl
  | key key =>
    cases other with
    | key second => simp [role] at h
    | value | binding | plain | nothing => rfl
  | value property value =>
    cases other with
    | value replaced second =>
      simp [onView, Option.map_map, Function.comp_def, Function.update_comm (hnames h)]
    | binding | plain | key | nothing => rfl
  | binding property binding =>
    cases other with
    | binding replaced second =>
      simp [onView, Option.map_map, Function.comp_def, Function.update_comm (hnames h)]
    | value | plain | key | nothing => rfl
  | plain name value =>
    cases other with
    | plain replaced second =>
      simp [onView, Option.map_map, Function.comp_def, Function.update_comm (hnames h)]
    | value | binding | key | nothing => rfl

theorem get?_insert_eq_update {α : Type} (entries : OrderedMap α) (name : String) (value : α) :
    (entries.insert name value).get? = Function.update entries.get? name (some value) := by
  funext other
  rw [OrderedMap.get?_insert, Function.update_apply]
  simp only [eq_comm]

/-- What lookups show behind a setting follows from what they showed before. -/
theorem view_write (target : ObjectId) (setting : Setting) (p : Pass) :
    (setting.write target p).view target = setting.onView target (p.view target) := by
  have hother : ∀ other, (if other = target then none
      else (setting.write target p).graph.component? other) =
      if other = target then none else p.graph.component? other := by
    intro other
    by_cases hsame : other = target
    · rw [if_pos hsame, if_pos hsame]
    · rw [if_neg hsame, if_neg hsame, write, Graph.component?_modify, if_neg (Ne.symm hsame)]
  have hself : (setting.write target p).graph.component? target =
      (p.graph.component? target).map setting.onObject := by
    rw [write, Graph.component?_modify, if_pos rfl]
  have hsize : (setting.write target p).graph.size = p.graph.size := Graph.size_modify _ _ _
  unfold Pass.view
  rw [emptied_write, funext hother, hself, hsize]
  cases hread : p.graph.component? target with
  | none => cases setting <;> rfl
  | some c =>
    cases setting with
    | plain name value =>
      have hplain : (onObject (.plain name value) c).plain? = Function.update c.plain? name
          (some value) :=
        get?_insert_eq_update c.plainValues name value
      rw [Option.map_some, Option.map_some, hplain]
      rfl
    | key | nothing => rfl
    | value property value =>
      cases hstore : c.store with
      | none =>
        simp only [onView, onObject, hstore, Option.map_some, Option.bind_some, Option.map_none]
        rfl
      | some store =>
        have hvalue : (store.setValue property value).value? =
            Function.update store.value? property.name (some value) :=
          get?_insert_eq_update store.values property.name value
        simp only [onView, onObject, hstore, Option.map_some, Option.bind_some, hvalue]
        rfl
    | binding property binding =>
      cases hstore : c.store with
      | none =>
        simp only [onView, onObject, hstore, Option.map_some, Option.bind_some, Option.map_none]
        rfl
      | some store =>
        have hbinding : (store.setBinding property binding).bindings.get? =
            Function.update store.bindings.get? property.name (some ⟨property, binding⟩) :=
          get?_insert_eq_update store.bindings property.name _
        simp only [onView, onObject, hstore, Option.map_some, Option.bind_some, hbinding]
        rfl

/-- What lookups show behind settings follows from what they showed before. -/
theorem view_foldl_write (target : ObjectId) (settings : List Setting) (p : Pass) :
    (settings.foldl (fun p setting => setting.write target p) p).view target =
      settings.foldl (fun view setting => setting.onView target view) (p.view target) := by
  induction settings generalizing p with
  | nil => rfl
  | cons setting settings ih => rw [List.foldl_cons, List.foldl_cons, ih, view_write]

end Setting

/-! ## Any order -/

/-- Whether an attribute declares the key of its object. -/
def DeclaresKey (attr : Attribute) : Prop :=
  attr.name.uri = metadataNamespace ∧ attr.name.localName = "Key"

/-- Whether two attributes set the same thing: a property, under whichever name, or the key. -/
def SetSame (first second : Attribute) : Prop :=
  (∃ name, WritesTo name first ∧ WritesTo name second) ∨ DeclaresKey first ∧ DeclaresKey second

/-- Whether an attribute sets nothing: it is in a namespace, and neither the id nor the key among
the metadata. -/
def Idle (attr : Attribute) : Prop :=
  attr.name.uri ≠ "" ∧
    (attr.name.uri = metadataNamespace → attr.name.localName ≠ "Id" ∧ attr.name.localName ≠ "Key")

instance : DecidablePred Idle := fun _ => inferInstanceAs (Decidable (_ ∧ _))

theorem declaresKey_iff (attr : Attribute) : DeclaresKey attr ↔ Pass.roleOf attr.name = .key := by
  have hdiffer : metadataNamespace ≠ "" := by decide
  unfold DeclaresKey Pass.roleOf
  split
  · next hnone => simp [hnone, hdiffer.symm]
  · split
    · next hmetadata => by_cases hid : attr.name.localName = "Id" <;> simp [hmetadata, hid]
    · next hmetadata => simp [hmetadata]

theorem idle_iff (attr : Attribute) : Idle attr ↔ Pass.roleOf attr.name = .ignored := by
  have hdiffer : metadataNamespace ≠ "" := by decide
  unfold Idle Pass.roleOf
  split
  · next hnone => simp [hnone]
  · split
    · next hmetadata => by_cases hid : attr.name.localName = "Id" <;> simp [hmetadata, hid, hdiffer]
    · next hnone hmetadata => simp [hnone, hmetadata]

/-- Attributes set the same thing if they have the same role, and one that does something. -/
theorem setSame_iff (first second : Attribute) :
    SetSame first second ↔
      Pass.roleOf first.name ≠ .ignored ∧ Pass.roleOf first.name = Pass.roleOf second.name := by
  simp only [SetSame, writesTo_iff, declaresKey_iff]
  cases Pass.roleOf first.name <;> simp [eq_comm]

instance (first second : Attribute) : Decidable (SetSame first second) :=
  decidable_of_iff _ (setSame_iff first second).symm

section Order

variable {p : Pass} {object : ObjectId} {type : TypeInfo} {attrs others : List Attribute}
  {settings : List Setting} {resources : ResourceTable} {target : Option Component}

/-- Settings of attributes of which no two set the same thing may be made in any order. -/
theorem foldl_onView_perm (hall : List.Forall₂ (Stands resources target type) attrs settings)
    (hapart : attrs.Pairwise fun first second => ¬ SetSame first second) {reordered : List Setting}
    (hperm : settings.Perm reordered) (view : View) :
    settings.foldl (fun view setting => setting.onView object view) view =
      reordered.foldl (fun view setting => setting.onView object view) view := by
  have hroles : settings.map Setting.role = attrs.map fun attr => Pass.roleOf attr.name := by
    clear hapart hperm
    induction hall with
    | nil => rfl
    | cons hfirst _ ih => rw [List.map_cons, List.map_cons, hfirst.role_eq, ih]
  have hpairs : settings.Pairwise fun first second => first.role = .ignored ∨
      first.role ≠ second.role := by
    have hattrs : (attrs.map fun attr => Pass.roleOf attr.name).Pairwise
        fun first second => first = .ignored ∨ first ≠ second := by
      refine List.pairwise_map.2 (hapart.imp fun {first second} hdiffer => ?_)
      rw [setSame_iff, not_and_or, not_not] at hdiffer
      exact hdiffer
    rw [← hroles] at hattrs
    exact List.pairwise_map.1 hattrs
  -- whatever the view is: the others may have been made before or not
  let Commute (first second : Setting) : Prop := ∀ view,
    second.onView object (first.onView object view) =
      first.onView object (second.onView object view)
  have hcommute : settings.Pairwise Commute := hpairs.imp Setting.onView_comm
  have : Std.Symm Commute := ⟨fun _ _ h view => (h view).symm⟩
  exact hperm.foldl_eq' (fun first hfirst second hsecond view =>
    hcommute.forall_of_forall (fun _ _ _ => rfl) hfirst hsecond view) view

/-- What a list of attributes does, if it is accepted, it also does in another order. -/
theorem exists_reordered (hapart : attrs.Pairwise fun first second => ¬ SetSame first second)
    (hperm : attrs.Perm others) {next : Pass}
    (h : p.applyAttributes object type attrs = (.ok (), next)) :
    ∃ last, p.applyAttributes object type others = (.ok (), last) ∧
    last.view object = next.view object := by
  obtain ⟨settings, hall, rfl⟩ := applyAttributes_eq_ok_iff.1 h
  obtain ⟨reordered, hreordered, hsame⟩ := List.perm_comp_forall₂ hperm.symm hall
  refine ⟨_, applyAttributes_eq_ok_iff.2 ⟨reordered, hreordered, rfl⟩, ?_⟩
  rw [Setting.view_foldl_write, Setting.view_foldl_write, foldl_onView_perm hall hapart hsame.symm]

/-- Attributes that set nothing may as well be left out. -/
theorem applyAttributes_filter_idle (p : Pass) (object : ObjectId) (type : TypeInfo)
    (attrs : List Attribute) :
    p.applyAttributes object type (attrs.filter fun attr => ¬ Idle attr) =
      p.applyAttributes object type attrs := by
  induction attrs generalizing p with
  | nil => rfl
  | cons attr attrs ih =>
    by_cases hidle : Idle attr
    · rw [List.filter_cons_of_neg (by simpa using hidle), ih, Pass.applyAttributes,
        Pass.applyAttribute, (idle_iff attr).1 hidle]
    · rw [List.filter_cons_of_pos (by simpa using hidle), Pass.applyAttributes,
        Pass.applyAttributes]
      cases p.applyAttribute object type attr with
      | error error => rfl
      | ok next => exact ih next

end Order

/-- Attributes are accepted if each of them is accepted alone. If no two of them set the same thing,
they may stand in any order: the same can be looked up afterwards, the values, bindings and plain
values of the object, the keys and the resources. Attributes that set nothing may stand, or be
missing, anywhere. -/
theorem attributes_anyOrder (p : Pass) (object : ObjectId) (type : TypeInfo)
    (attrs others : List Attribute) :
    ((p.applyAttributes object type attrs).1 = .ok () ↔
      ∀ attr ∈ attrs, ∃ next, p.applyAttribute object type attr = .ok next) ∧
    (attrs.Pairwise (fun first second => ¬ SetSame first second) → attrs.Perm others →
      ((p.applyAttributes object type attrs).1 = .ok () ↔
        (p.applyAttributes object type others).1 = .ok ()) ∧
      ((p.applyAttributes object type attrs).1 = .ok () →
        (p.applyAttributes object type others).2.view object =
          (p.applyAttributes object type attrs).2.view object)) ∧
    (attrs.filter (fun attr => ¬ Idle attr) = others.filter (fun attr => ¬ Idle attr) →
      p.applyAttributes object type attrs = p.applyAttributes object type others) := by
  refine ⟨applyAttributes_accepted_iff, fun hapart hperm => ⟨?_, fun h => ?_⟩, fun hsame => ?_⟩
  · simp only [applyAttributes_accepted_iff, hperm.mem_iff]
  · obtain ⟨last, hlast, hview⟩ := exists_reordered hapart hperm (Prod.ext h rfl)
    rw [hlast, hview]
  · rw [← applyAttributes_filter_idle, hsame, applyAttributes_filter_idle]

/-- Attributes of a label: its text bound, its opacity and its place set, an id and a key among the
metadata. -/
def boundLabelAttributes : List Attribute :=
  [⟨⟨"Text", "Text", ""⟩, "\x7bBinding N\x7d"⟩, ⟨⟨"Opacity", "Opacity", ""⟩, "0.5"⟩,
    ⟨⟨"XAlign", "XAlign", ""⟩, "Center"⟩, ⟨⟨"x:Id", "Id", metadataNamespace⟩, "i"⟩,
    ⟨⟨"x:Key", "Key", metadataNamespace⟩, "k"⟩]

/-- An attribute for another program. -/
def foreignAttribute : Attribute :=
  ⟨⟨"d:Text", "Text", "design"⟩, "b"⟩

/-- The attributes of a label may as well stand in reverse order, and another program's among
them. -/
theorem attributes_anyOrder_boundLabel :
    boundLabelAttributes.Pairwise (fun first second => ¬ SetSame first second) ∧
      boundLabelAttributes.Perm boundLabelAttributes.reverse ∧
      (labelPass.applyAttributes ⟨0⟩ Forms.label boundLabelAttributes).1 = .ok () ∧
      (labelPass.applyAttributes ⟨0⟩ Forms.label boundLabelAttributes.reverse).1 = .ok () ∧
      (labelPass.applyAttributes ⟨0⟩ Forms.label boundLabelAttributes.reverse).2.view ⟨0⟩ =
        (labelPass.applyAttributes ⟨0⟩ Forms.label boundLabelAttributes).2.view ⟨0⟩ ∧
      labelPass.applyAttributes ⟨0⟩ Forms.label boundLabelAttributes =
        labelPass.applyAttributes ⟨0⟩ Forms.label (foreignAttribute :: boundLabelAttributes) := by
  have hapart : boundLabelAttributes.Pairwise (fun first second => ¬ SetSame first second) := by
    decide +kernel
  have hperm : boundLabelAttributes.Perm boundLabelAttributes.reverse := (List.reverse_perm _).symm
  have haccepted : (labelPass.applyAttributes ⟨0⟩ Forms.label boundLabelAttributes).1 = .ok () := by
    decide +kernel
  have hreverse := (attributes_anyOrder labelPass ⟨0⟩ Forms.label boundLabelAttributes
    boundLabelAttributes.reverse).2.1 hapart hperm
  have hforeign := (attributes_anyOrder labelPass ⟨0⟩ Forms.label boundLabelAttributes
    (foreignAttribute :: boundLabelAttributes)).2.2 (by decide +kernel)
  exact ⟨hapart, hperm, haccepted, hreverse.1.1 haccepted, hreverse.2 haccepted, hforeign⟩

end Hydration

end MarkupForms
