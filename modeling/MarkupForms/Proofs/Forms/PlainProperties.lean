import MarkupForms.Hydration.Coercion
import MarkupForms.Proofs.Hydration.KindSafety
import MarkupForms.Proofs.OrderedMap
import MarkupForms.Proofs.Types.Declared
import MarkupForms.Showcase.Types

/-!
# Plain properties and the fields of objects

A type declares its plain properties, and its objects list the fields that they take. The two lists
are kept apart; on every type of the framework and of the showcase they agree (`fieldsDeclared`). So
what an object does with a plain value can be read off the declarations: a declared property takes
what its kind admits and reads it back, and a name that is not declared is refused. There is one
exception, which the fields make on purpose: a property of kind `object` admits anything, but the
field holds objects only. The item template of lists is the only such property, so a text that
markup supplies for an item template is the only coerced value that an object refuses.
-/

namespace MarkupForms

/-! ## Fields that are declared -/

/-- The field that a plain property asks for. -/
def PropertyInfo.plainField? : PropertyInfo → Option PlainField
  | .managed _ => none
  | .plain name kind => some ⟨name, kind⟩

/-- The fields that a type declares, its own before those of its bases. -/
def TypeInfo.plainFields (type : TypeInfo) : List PlainField :=
  type.allProperties.filterMap PropertyInfo.plainField?

/-- A field is found exactly where the declared kind is. -/
theorem TypeInfo.find?_plainFields (type : TypeInfo) (name : String) :
    type.plainFields.find? (·.name == name) = (type.findPlain name).map (⟨name, ·⟩) := by
  unfold plainFields findPlain
  induction type.allProperties with
  | nil => rfl
  | cons info rest ih =>
    cases info with
    | managed property =>
      rw [List.filterMap_cons_none rfl, List.findSome?_cons_of_isNone rfl]
      exact ih
    | plain declared kind =>
      have hfield : (PropertyInfo.plain declared kind).plainField? = some ⟨declared, kind⟩ := rfl
      rw [List.filterMap_cons_some hfield, List.find?_cons, List.findSome?_cons,
        PropertyInfo.plainKind?]
      by_cases hname : declared = name
      · subst hname
        simp only [beq_self_eq_true, if_true, Option.map_some]
      · simp only [beq_eq_false_iff_ne.2 hname, if_neg hname]
        exact ih

/-- Whether a plain value may be found under a name. -/
def PlainAccess.Takes : PlainAccess → String → Prop
  | .anything, _ => True
  | .fields _ known, name => ∃ field ∈ known, field.name = name

theorem PlainAccess.Accepts.takes {access : PlainAccess} {name : String} {value : Value}
    (h : access.Accepts name value) : access.Takes name := by
  cases access with
  | anything => trivial
  | fields owner known =>
    obtain ⟨field, hfind, -⟩ := h
    exact ⟨field, List.mem_of_find?_eq_some hfind, by simpa using List.find?_some hfind⟩

instance (access : PlainAccess) (name : String) : Decidable (access.Takes name) :=
  match access with
  | .anything => isTrue trivial
  | .fields _ known => inferInstanceAs (Decidable (∃ field ∈ known, field.name = name))

namespace ObjectState

/-- What an object does with a plain value if its fields are the declared ones. -/
theorem setPlain_of_declared {type : TypeInfo} {state : ObjectState} {owner : String}
    (h : state.plainAccess = .fields owner type.plainFields) (name : String) (value : Value) :
    state.setPlain name value =
      match type.findPlain name with
      | none => .error (.noPlainProperty owner name)
      | some kind =>
        if PlainField.accepts ⟨name, kind⟩ value then
          .ok { state with plainValues := state.plainValues.insert name value }
        else .error (.valueMismatch owner name kind) := by
  unfold setPlain
  rw [h]
  dsimp only
  rw [TypeInfo.find?_plainFields]
  cases type.findPlain name with
  | none => rfl
  | some kind => rfl

/-- The states that an object can be in which was made as `start`: it has the fields that it had
then, and values in fields only, any values; whatever else it holds does not matter. -/
structure MadeAs (start state : ObjectState) : Prop where
  access : state.plainAccess = start.plainAccess
  values : ∀ name ∈ state.plainValues.keys, start.plainAccess.Takes name

namespace MadeAs

variable {start state next : ObjectState}

/-- Whatever leaves an object's fields and their values alone. -/
theorem of_same (h : start.MadeAs state) (haccess : next.plainAccess = state.plainAccess)
    (hvalues : next.plainValues = state.plainValues) : start.MadeAs next where
  access := haccess.trans h.access
  values := by
    rw [hvalues]
    exact h.values

/-- A write that the object takes. -/
theorem setPlain {name : String} {value : Value} (h : start.MadeAs state)
    (hset : state.setPlain name value = .ok next) : start.MadeAs next := by
  obtain ⟨haccepts, rfl⟩ := setPlain_eq_ok_iff.1 hset
  refine ⟨h.access, fun key hkey => ?_⟩
  rcases OrderedMap.mem_keys_insert.1 hkey with hold | rfl
  · exact h.values key hold
  · rw [h.access] at haccepts
    exact haccepts.takes

end MadeAs

end ObjectState

/-! ## The framework and the showcase -/

namespace Forms

/-- An object that was made as `start` has the fields that `type` declares, and complaints name
`owner`. -/
structure FieldsDeclared (type : TypeInfo) (owner : String) (start : ObjectState) : Prop where
  fields : start.plainAccess = .fields owner type.plainFields
  /-- A new object has values in its fields only. -/
  values : ∀ name ∈ start.plainValues.keys, start.plainAccess.Takes name
  /-- No two properties of the type have the same name. -/
  distinct : (type.allProperties.map (·.name)).Nodup
  /-- Which plain properties are of kind `object`. -/
  template : ∀ info ∈ type.allProperties, info.kind = .object → info.isManaged = true ∨
    info.name = "ItemTemplate"

theorem FieldsDeclared.madeAs_self {type : TypeInfo} {owner : String} {start : ObjectState}
    (h : FieldsDeclared type owner start) : start.MadeAs start :=
  ⟨rfl, h.values⟩

/-- **The fields of new objects are the declared ones**, on each of the framework's types that has
objects, and complaints name the type. -/
theorem fieldsDeclared_of_mem {type : TypeInfo} (htype : type ∈ types) {start : ObjectState}
    (hnew : type.constructor = some start) : FieldsDeclared type type.name start := by
  simp only [types, List.mem_cons, List.not_mem_nil, or_false] at htype
  -- the abstract types drop out, for they have no new objects
  rcases htype with rfl | rfl | rfl | rfl | rfl | rfl | rfl | rfl | rfl | rfl | rfl <;>
    cases hnew <;>
    exact ⟨rfl, by decide, by decide, by decide⟩

/-- The showcase's page has the fields of the page that it wraps, whose name complaints give. -/
theorem fieldsDeclared_of_mem_showcase {type : TypeInfo} (htype : type ∈ Showcase.types)
    {start : ObjectState} (hnew : type.constructor = some start) :
    ∃ owner, FieldsDeclared type owner start := by
  simp only [Showcase.types, List.mem_cons, List.not_mem_nil, or_false] at htype
  rcases htype with rfl | rfl <;> cases hnew
  · exact ⟨contentPage.name, rfl, by decide, by decide, by decide⟩
  · exact ⟨Showcase.upperCaseConverter.name, rfl, by decide, by decide, by decide⟩

/-- What an object of `type` does with plain values; its complaints name `owner`. -/
structure FollowsDeclarations (type : TypeInfo) (owner : String) (state : ObjectState) : Prop where
  /-- A declared property takes what its kind admits, one of kind `object` any object. The value is
  read back, and nothing else of the object changes. -/
  takes : ∀ name kind value, .plain name kind ∈ type.allProperties → kind.admits value = true →
    (kind = .object → ∃ id, value = .object id) →
      ∃ next, state.setPlain name value = .ok next ∧ next.plain? name = some value ∧
        (∀ other, other ≠ name → next.plain? other = state.plain? other) ∧
          next = { state with plainValues := next.plainValues }
  /-- Item templates are the only properties of kind `object`, and hold nothing but objects. -/
  template : ∀ name value, .plain name .object ∈ type.allProperties → (∀ id, value ≠ .object id) →
    name = "ItemTemplate" ∧ state.setPlain name value = .error (.valueMismatch owner name .object)
  /-- Under a name that is not declared nothing is written or found. -/
  undeclared : ∀ name, (∀ kind, .plain name kind ∉ type.allProperties) →
    (∀ value, state.setPlain name value = .error (.noPlainProperty owner name)) ∧
    state.plain? name = none
  /-- Of what coercion yields for a declared property, only a text for an item template is
  refused. -/
  coerced :
    ∀ (typeOf : ObjectId → String) (name : String) (kind : ValueKind) (raw : Hydration.RawValue)
    (value : Value), .plain name kind ∈ type.allProperties →
    Hydration.coerce typeOf kind name raw = .ok value →
      ((∃ next, state.setPlain name value = .ok next) ↔
        ¬ (kind = .object ∧ ∃ text, raw = .text text))

section Declared

variable {type : TypeInfo} {owner name : String} {kind : ValueKind} {start state : ObjectState}
  {value : Value}

namespace FieldsDeclared

/-- A field takes what the declared kind admits; one of kind `object` takes objects. -/
theorem setPlain_eq_ok (h : FieldsDeclared type owner start) (hstate : start.MadeAs state)
    (hmem : .plain name kind ∈ type.allProperties) (hadmits : kind.admits value = true)
    (hobject : kind = .object → ∃ id, value = .object id) :
    state.setPlain name value =
      .ok { state with plainValues := state.plainValues.insert name value } := by
  have haccepts : PlainField.accepts ⟨name, kind⟩ value = true := by
    cases kind with
    | object =>
      obtain ⟨id, rfl⟩ := hobject rfl
      rfl
    | text | int | float | bool | enum | list => exact hadmits
  rw [ObjectState.setPlain_of_declared (hstate.access.trans h.fields),
    findPlain_of_plain h.distinct hmem]
  exact if_pos haccepts

/-- A field of kind `object` takes nothing but objects. -/
theorem setPlain_eq_error (h : FieldsDeclared type owner start) (hstate : start.MadeAs state)
    (hmem : .plain name .object ∈ type.allProperties) (hvalue : ∀ id, value ≠ .object id) :
    state.setPlain name value = .error (.valueMismatch owner name .object) := by
  have hrefuses : ¬ PlainField.accepts ⟨name, .object⟩ value = true := by
    cases value with
    | object id => exact absurd rfl (hvalue id)
    | text | int | float | bool | enum | list => exact Bool.false_ne_true
  rw [ObjectState.setPlain_of_declared (hstate.access.trans h.fields),
    findPlain_of_plain h.distinct hmem]
  exact if_neg hrefuses

theorem setPlain_undeclared (h : FieldsDeclared type owner start) (hstate : start.MadeAs state)
    (hplain : type.findPlain name = none) (value : Value) :
    state.setPlain name value = .error (.noPlainProperty owner name) := by
  rw [ObjectState.setPlain_of_declared (hstate.access.trans h.fields), hplain]

theorem plain?_undeclared (h : FieldsDeclared type owner start) (hstate : start.MadeAs state)
    (hplain : type.findPlain name = none) : state.plain? name = none := by
  refine OrderedMap.lookupEntry_eq_none fun hkey => ?_
  have htakes := hstate.values name hkey
  rw [h.fields] at htakes
  obtain ⟨field, hfield, hname⟩ := htakes
  have hnone := TypeInfo.find?_plainFields type name
  rw [hplain] at hnone
  exact List.find?_eq_none.1 hnone field hfield (by simpa using hname)

/-- Coercion yields what the kind admits, so only the exception of item templates is left. -/
theorem setPlain_coerced (h : FieldsDeclared type owner start) (hstate : start.MadeAs state)
    (hmem : .plain name kind ∈ type.allProperties) {typeOf : ObjectId → String}
    {raw : Hydration.RawValue} (hcoerce : Hydration.coerce typeOf kind name raw = .ok value) :
    (∃ next, state.setPlain name value = .ok next) ↔
    ¬ (kind = .object ∧ ∃ text, raw = .text text) := by
  constructor
  · rintro ⟨next, hok⟩ ⟨rfl, text, rfl⟩
    cases hcoerce
    rw [h.setPlain_eq_error hstate hmem fun _ hobject => by cases hobject] at hok
    cases hok
  · intro hnot
    refine ⟨_, h.setPlain_eq_ok hstate hmem (Hydration.admits_of_coerce hcoerce) ?_⟩
    rintro rfl
    cases raw with
    | text text => exact absurd ⟨rfl, text, rfl⟩ hnot
    | object id =>
      cases hcoerce
      exact ⟨id, rfl⟩

theorem followsDeclarations (h : FieldsDeclared type owner start) (hstate : start.MadeAs state) :
    FollowsDeclarations type owner state where
  takes name kind value hmem hadmits hobject := by
    refine ⟨_, h.setPlain_eq_ok hstate hmem hadmits hobject, ?_, fun other hother => ?_, rfl⟩
    · exact (OrderedMap.get?_insert ..).trans (if_pos rfl)
    · exact (OrderedMap.get?_insert ..).trans (if_neg (Ne.symm hother))
  template name value hmem hvalue :=
    ⟨(h.template _ hmem rfl).resolve_left Bool.false_ne_true,
      h.setPlain_eq_error hstate hmem hvalue⟩
  undeclared name hundeclared := by
    have hplain : type.findPlain name = none :=
      Option.eq_none_iff_forall_not_mem.2 fun kind hfound =>
        hundeclared kind (mem_of_findPlain hfound)
    exact ⟨h.setPlain_undeclared hstate hplain, h.plain?_undeclared hstate hplain⟩
  coerced _ _ _ _ _ hmem hcoerce := h.setPlain_coerced hstate hmem hcoerce

end FieldsDeclared

/-- **Plain properties are what the declarations say**, on every object of the framework's types and
of the showcase's, in any state: a write of a value that the kind of the declared property admits
goes through, is read back and changes nothing else; undeclared names are refused and never hold a
value. Only item templates take less than their kind admits, namely objects, so a text for an item
template is the only coerced value that is refused. -/
theorem plain_followsDeclarations (type : TypeInfo) (htype : type ∈ types ++ Showcase.types)
    (start : ObjectState) (hnew : type.constructor = some start) (state : ObjectState)
    (hstate : start.MadeAs state) :
    ∃ owner, (type ∈ types → owner = type.name) ∧ FollowsDeclarations type owner state := by
  by_cases hframework : type ∈ types
  · exact ⟨type.name, fun _ => rfl,
      (fieldsDeclared_of_mem hframework hnew).followsDeclarations hstate⟩
  · obtain ⟨owner, h⟩ :=
      fieldsDeclared_of_mem_showcase ((List.mem_append.1 htype).resolve_left hframework) hnew
    exact ⟨owner, fun hmem => absurd hmem hframework, h.followsDeclarations hstate⟩

end Declared

/-- A list with two rows and an id. -/
def usedListView : ObjectState :=
  { newListView with
    plainValues := newListView.plainValues.insert "Id" (.text "people")
    rows := some [⟨1⟩, ⟨2⟩] }

theorem madeAs_usedListView : newListView.MadeAs usedListView := by
  have hlistView : listView ∈ types := by simp [types]
  have hnew := (fieldsDeclared_of_mem hlistView rfl).madeAs_self
  have hset : newListView.setPlain "Id" (.text "people") =
      .ok
      { newListView with plainValues := newListView.plainValues.insert "Id" (.text "people") } :=
        rfl
  exact (hnew.setPlain hset).of_same rfl rfl

/-- A list that has been used takes an object as its item template, but a text neither as its
template nor under the name of a managed property. -/
theorem plain_followsDeclarations_usedListView :
    (listView ∈ types ++ Showcase.types ∧ listView.constructor = some newListView ∧
      newListView.MadeAs usedListView) ∧
      (∃ next, usedListView.setPlain "ItemTemplate" (.object ⟨7⟩) = .ok next ∧
        next.plain? "ItemTemplate" = some (.object ⟨7⟩) ∧
        next.plain? "Id" = some (.text "people")) ∧
      usedListView.setPlain "ItemTemplate" (.text "x") =
        .error (.valueMismatch "ListView" "ItemTemplate" .object) ∧
      usedListView.setPlain "Header" (.text "x") =
        .error (.noPlainProperty "ListView" "Header") := by
  have hframework : listView ∈ types := by simp [types]
  have htype : listView ∈ types ++ Showcase.types := List.mem_append_left _ hframework
  refine ⟨⟨htype, rfl, madeAs_usedListView⟩, ?_⟩
  obtain ⟨owner, howner, h⟩ :=
    plain_followsDeclarations listView htype newListView rfl usedListView madeAs_usedListView
  cases howner hframework
  have htemplate : .plain "ItemTemplate" .object ∈ listView.allProperties := by decide
  obtain ⟨next, hset, hread, hother, -⟩ := h.takes _ _ (.object ⟨7⟩) htemplate rfl fun _ => ⟨_, rfl⟩
  have hobject : ∀ object : ObjectId, Value.text "x" ≠ .object object := fun object heq => by
    cases heq
  refine ⟨⟨next, hset, hread, hother "Id" (by decide)⟩,
    (h.template _ (.text "x") htemplate hobject).2, ?_⟩
  have hmanaged : ("Header", false) ∉ listView.allProperties.map fun info =>
    (info.name, info.isManaged) := by decide
  exact (h.undeclared "Header" fun kind hmem => hmanaged (List.mem_map.2 ⟨_, hmem, rfl⟩)).1 _

/-- The kind of a declared property does not say what objects take: item templates refuse texts. -/
theorem not_every_admitted_value_taken :
    ¬ ∀ (type : TypeInfo) (start : ObjectState) (name : String) (kind : ValueKind) (value : Value),
      type ∈ types → type.constructor = some start → .plain name kind ∈ type.allProperties →
        kind.admits value = true → ∃ next, start.setPlain name value = .ok next := by
  intro law
  have hlistView : listView ∈ types := by simp [types]
  obtain ⟨next, hset⟩ := law listView newListView "ItemTemplate" .object
    (.text "x") hlistView rfl (by decide) rfl
  cases hset

end Forms

/-! ## Objects in whole runs -/

/-- The object is in a state that objects of its type can be in, and the type is registered. -/
def Component.OfItsType (catalog : Catalog) (c : Component) : Prop :=
  catalog.Contains c.type ∧ ∃ start, c.type.constructor = some start ∧ start.MadeAs c.toObjectState

/-- New objects of registered types have values in their fields only. -/
def Catalog.NewObjectsInFields (catalog : Catalog) : Prop :=
  ∀ type start, catalog.Contains type → type.constructor = some start → start.MadeAs start

namespace Component.OfItsType

variable {catalog : Catalog} {c next : Component}

theorem of_same (h : c.OfItsType catalog) (htype : next.type = c.type)
    (haccess : next.plainAccess = c.plainAccess) (hvalues : next.plainValues = c.plainValues) :
    next.OfItsType catalog := by
  obtain ⟨hcontains, start, hnew, hstate⟩ := h
  exact ⟨htype ▸ hcontains, start, htype ▸ hnew, hstate.of_same haccess hvalues⟩

theorem applyContext (h : c.OfItsType catalog) (g : Graph) (busy : List ObjectId)
    (context : BindingContext) :
    (c.applyContext g busy context).1.OfItsType catalog := by
  unfold Component.applyContext
  split
  · exact h
  · exact h.of_same rfl rfl rfl

/-- A write that leaves an object's fields and their values alone. -/
theorem set_same {g : Graph} (h : g.All (Component.OfItsType catalog)) {object : ObjectId}
    (hread : g.component? object = some c) (htype : next.type = c.type)
    (haccess : next.plainAccess = c.plainAccess) (hvalues : next.plainValues = c.plainValues) :
    (g.set object next).All (Component.OfItsType catalog) :=
  h.set ((h object c hread).of_same htype haccess hvalues) object

end Component.OfItsType

theorem keptByContext_ofItsType {catalog : Catalog} (hnew : catalog.NewObjectsInFields) :
    KeptByContext (Component.OfItsType catalog) where
  applyContext _ g busy context h := h.applyContext g busy context
  rows _ _ h := h.of_same rfl rfl rfl
  stamped _ _ state h _ hstate :=
    ⟨h.1, state, hstate, (hnew _ _ h.1 hstate).of_same rfl rfl⟩

namespace Hydration

open Markup

theorem ofItsType_assign {catalog : Catalog} {p next : Pass} {object : ObjectId} {type : TypeInfo}
    {name : String} {raw : RawValue} (h : p.graph.All (Component.OfItsType catalog))
    (hassign : p.assign object type name raw = .ok next) :
    next.graph.All (Component.OfItsType catalog) := by
  cases Pass.assigned_of_assign hassign with
  | shared | dangling => exact h
  | bound c _ _ _ _ _ _ _ _ _ hread _ => exact Component.OfItsType.set_same h hread rfl rfl rfl
  | managed c _ _ _ _ _ _ _ hread _ => exact Component.OfItsType.set_same h hread rfl rfl rfl
  | plain c state _ value _ _ _ _ _ hread hwrite =>
    obtain ⟨hcontains, start, hstart, hstate⟩ := h object c hread
    have hwritten : Component.OfItsType catalog { c with toObjectState := state } :=
      ⟨hcontains, start, hstart, hstate.setPlain hwrite⟩
    exact h.set hwritten object

/-- **What a pass keeps**: every object stays in a state that objects of its type can be in. -/
def staysOfItsType {catalog : Catalog} (hnew : catalog.NewObjectsInFields) : PassInvariant where
  Holds p := p.resolver.catalog = catalog ∧ p.graph.All (Component.OfItsType catalog)
  Open _ _ _ := True
  Made _ _ := True
  resolves {p} tag h :=
    ⟨⟨(p.catalog_resolveTag tag).trans h.1, h.2⟩, fun _ _ hopen => hopen, fun _ hmade => hmade⟩
  constructs {p resolved tag type object graph} h hresolve hmade := by
    have hresolver := p.catalog_resolveTag tag
    have hgraph := p.graph_resolveTag tag
    rw [hresolve] at hresolver hgraph
    obtain ⟨start, hstart, halloc⟩ := construct_eq_ok hmade
    cases halloc
    have hcontains : catalog.Contains type := h.1 ▸ Pass.contains_of_resolveTag hresolve
    have hobject : Component.OfItsType catalog { start with type := type } :=
      ⟨hcontains, start, hstart, (hnew type start hcontains hstart).of_same rfl rfl⟩
    rw [hgraph]
    exact ⟨⟨⟨hresolver.trans h.1, h.2.alloc hobject⟩, fun _ _ _ => trivial, fun _ _ => trivial⟩,
      trivial, trivial⟩
  assigns {p next object type name raw} h _ _ hassign := by
    refine ⟨⟨?_, ofItsType_assign h.2 hassign⟩, fun _ _ _ => trivial, fun _ _ => trivial⟩
    rw [(Pass.assigned_of_assign hassign).resolver]
    exact h.1
  declares _ h _ := ⟨h, fun _ _ hopen => hopen, fun _ _ => trivial⟩
  inserts {p object child type} h _ _ := by
    refine ⟨?_, fun _ _ _ => trivial, fun _ _ => trivial⟩
    have hinserted := p.inserted_insertChild object type child
    generalize p.insertChild object type child = outcome at hinserted
    cases hinserted with
    | item c _ _ hread _ => exact ⟨h.1, Component.OfItsType.set_same h.2 hread rfl rfl rfl⟩
    | entry c _ _ _ _ _ hread _ => exact ⟨h.1, Component.OfItsType.set_same h.2 hread rfl rfl rfl⟩
    | refused _ _ _ => exact h

theorem Reached.ofItsType {catalog : Catalog} (hnew : catalog.NewObjectsInFields) {g : Graph}
    (h : Reached catalog g) : g.All (Component.OfItsType catalog) := by
  induction h with
  | start hfresh =>
    intro id c hc
    obtain ⟨type, state, hcontains, hstate, rfl⟩ := hfresh id c hc
    exact ⟨hcontains, state, hstate, (hnew type state hcontains hstate).of_same rfl rfl⟩
  | @load g localModule root text hg hroot ih =>
    have hholds : (staysOfItsType hnew).Holds (LoadRequest.pass ⟨g, catalog, localModule, root⟩) :=
      ⟨rfl, ih⟩
    exact (PassInvariant.assemble (Position.ofOffset? text.toList)
      (NodeFeed.ofText text.toList) hholds
      fun _ _ _ _ _ _ _ => trivial).1.2
  | assign hp htarget hassign ih => exact ofItsType_assign ih hassign
  | setContext root context hg ih => exact ih.setContext (keptByContext_ofItsType hnew) root context

/-- **Objects of whole runs follow the declarations**: whatever loads, assignments and changes of
context have done to an object of the framework or the showcase, its plain properties are what its
type declares. -/
theorem Reached.followsDeclarations {g : Graph} (h : Reached Showcase.catalog g) {object : ObjectId}
    {c : Component} (hc : g.component? object = some c) :
    ∃ owner, Forms.FollowsDeclarations c.type owner c.toObjectState := by
  have hdeclared : ∀ {type start}, Showcase.catalog.Contains type → type.constructor = some start →
      ∃ owner, Forms.FieldsDeclared type owner start := by
    rintro type start ⟨m, hm, htype⟩ hnew
    simp only [Showcase.catalog, List.mem_cons, List.not_mem_nil, or_false] at hm
    rcases hm with rfl | rfl
    · exact ⟨type.name, Forms.fieldsDeclared_of_mem htype hnew⟩
    · exact Forms.fieldsDeclared_of_mem_showcase htype hnew
  have hfields : Showcase.catalog.NewObjectsInFields := by
    intro type start hcontains hnew
    obtain ⟨owner, hfields⟩ := hdeclared hcontains hnew
    exact hfields.madeAs_self
  obtain ⟨hcontains, start, hnew, hstate⟩ := h.ofItsType hfields object c hc
  obtain ⟨owner, hfields⟩ := hdeclared hcontains hnew
  exact ⟨owner, hfields.followsDeclarations hstate⟩

end Hydration

end MarkupForms
