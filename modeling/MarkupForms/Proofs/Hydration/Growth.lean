import MarkupForms.Proofs.Hydration.Mirror
import MarkupForms.Proofs.Objects.Forest

/-!
# Documents grow trees

The reading of an element makes one object that nothing refers to yet, and a forest below it.
Whoever reads the element then refers to its object once, from an object that was made before. So
the induction over the tree of a document carries from each pass to a later one that there is a
forest, that objects do not go away, and that no earlier object is referred to more often than it
was.
-/

namespace MarkupForms

/-- What the constructors of registered types return refers to nothing: a new object has no items,
no entries and no object in a property. -/
def Catalog.NewObjectsAlone (catalog : Catalog) : Prop :=
  ∀ type state, catalog.Contains type → type.constructor = some state → state.references = []

namespace Hydration

open Markup

/-! ## What a pass has grown -/

/-- From `before` to `after` the graph has grown: it is a forest from the object number `start` on,
and the objects of `before` are referred to no more often than there. -/
structure Grown (start : Nat) (before after : Pass) : Prop where
  catalog : after.resolver.catalog = before.resolver.catalog
  size : before.graph.size ≤ after.graph.size
  forest : after.graph.Forest start
  loose (x : ObjectId) : x.index < before.graph.size →
    after.graph.indegree x ≤ before.graph.indegree x

/-- The graph has grown by `object`, which nothing refers to, and by what is below it. -/
structure GrownBy (start : Nat) (before : Pass) (object : ObjectId) (after : Pass) : Prop
    extends Grown start before after where
  later : before.graph.size ≤ object.index
  known : object.index < after.graph.size
  free : after.graph.indegree object = 0

/-- The object that a raw value is. -/
def RawValue.object? : RawValue → Option ObjectId
  | .text _ => none
  | .object id => some id

/-- The graph has grown by the object that a raw value is, if it is one. -/
def GrownByValue (start : Nat) (before : Pass) (raw : RawValue) (after : Pass) : Prop :=
  Grown start before after ∧ ∀ object, raw.object? = some object → GrownBy start before object after

namespace Grown

variable {start : Nat} {p q r : Pass}

theorem refl (h : p.graph.Forest start) : Grown start p p :=
  ⟨rfl, Nat.le_refl _, h, fun _ _ => Nat.le_refl _⟩

theorem trans (h : Grown start p q) (h' : Grown start q r) : Grown start p r where
  catalog := h'.catalog.trans h.catalog
  size := Nat.le_trans h.size h'.size
  forest := h'.forest
  loose x hx := by
    have hfirst := h.loose x hx
    have hsecond := h'.loose x (Nat.lt_of_lt_of_le hx h.size)
    exact Nat.le_trans hsecond hfirst

/-- No object changes. -/
theorem same (h : Grown start p q) (hcatalog : r.resolver.catalog = q.resolver.catalog)
    (hgraph : r.graph = q.graph) : Grown start p r := by
  obtain ⟨hown, hsize, hforest, hloose⟩ := h
  refine ⟨hcatalog.trans hown, ?_, ?_, ?_⟩ <;> rw [hgraph] <;> assumption

/-- An object made before comes to refer to a later one, which nothing refers to; or to nothing
new. -/
theorem write (h : Grown start p q) {target : ObjectId} {c next : Component}
    (htarget : target.index < p.graph.size) (hread : q.graph.component? target = some c)
    (added : Option ObjectId)
    (hcount : ∀ x, next.references.count x ≤ c.references.count x + added.toList.count x)
    (hadded : ∀ child, added = some child → GrownBy start p child q) {r : Pass}
    (hcatalog : r.resolver.catalog = q.resolver.catalog)
    (hgraph : r.graph = q.graph.set target next) :
    Grown start p r where
  catalog := hcatalog.trans h.catalog
  size := by
    rw [hgraph, Graph.size_set]
    exact h.size
  forest := by
    rw [hgraph]
    apply h.forest.write hread hcount
    intro child hchild
    have hgrown := hadded child hchild
    exact ⟨Nat.lt_of_lt_of_le htarget hgrown.later, hgrown.known, hgrown.free⟩
  loose x hx := by
    have hset := Graph.indegree_set hread next x
    have hle := hcount x
    have hzero : added.toList.count x = 0 := by
      apply List.count_eq_zero_of_not_mem
      intro hmem
      have hlater := (hadded x (Option.mem_toList.1 hmem)).later
      exact absurd hx (Nat.not_lt.2 hlater)
    have hloose := h.loose x hx
    rw [hgraph]
    omega

end Grown

theorem GrownBy.trans {start : Nat} {p q r : Pass} {object : ObjectId}
    (h : GrownBy start p object q) (h' : Grown start q r) : GrownBy start p object r where
  toGrown := h.toGrown.trans h'
  later := h.later
  known := Nat.lt_of_lt_of_le h.known h'.size
  free := by
    have hloose := h'.loose object h.known
    rw [h.free] at hloose
    exact Nat.le_zero.1 hloose

/-! ## One write -/

/-- A coerced value is the object that was given, or none. -/
theorem object?_of_coerce {typeOf : ObjectId → String} {kind : ValueKind} {name : String}
    {raw : RawValue} {value : Value} (h : coerce typeOf kind name raw = .ok value) :
    value.asObject? = raw.object? := by
  cases raw with
  | text content =>
    rw [coerce] at h
    cases hread : readValue? kind content with
    | none => simp only [hread] at h; cases h
    | some value =>
      simp only [hread] at h
      cases h
      exact asObject?_of_readValue? hread
  | object id =>
    cases kind with
    | object => cases h; rfl
    | text | int | float | bool | enum info | list => cases h

section Writes

variable {start : Nat} {before p next : Pass} {target : ObjectId} {type : TypeInfo}

theorem count_references_setValue (c : Component) {store : PropertyStore}
    (hstore : c.store = some store) (property : ManagedProperty) (value : Value) (x : ObjectId) :
    (ObjectState.references { c.toObjectState with
        store := some (store.setValue property value) }).count x ≤
      c.references.count x + value.asObject?.toList.count x := by
  have hinsert :=
    OrderedMap.count_filterMap_insert Value.asObject? store.values property.name value x
  rw [ObjectState.count_references, ObjectState.count_references,
    ObjectState.objectValues_of_store hstore]
  show _ + ((store.values.insert property.name value).values.filterMap Value.asObject?).count x +
    _ + c.plainObjects.count x ≤ _
  dsimp only
  omega

theorem count_references_setPlain (c : Component) (name : String) (value : Value) (x : ObjectId) :
    (ObjectState.references { c.toObjectState with
        plainValues := c.plainValues.insert name value }).count x ≤
      c.references.count x + value.asObject?.toList.count x := by
  have hinsert := OrderedMap.count_filterMap_insert Value.asObject? c.plainValues name value x
  rw [ObjectState.count_references, ObjectState.count_references]
  show _ + ((c.plainValues.insert name value).values.filterMap Value.asObject?).count x ≤
    _ + (c.plainValues.values.filterMap Value.asObject?).count x + _
  have hvalues : ({ c.toObjectState with
    plainValues := c.plainValues.insert name value } :
    ObjectState).objectValues = c.objectValues := rfl
  rw [hvalues]
  dsimp only
  omega

/-- An assignment makes its object refer to what is assigned, and to nothing else that is new. -/
theorem Grown.assign {raw : RawValue} {name : String} (h : Grown start before p)
    (htarget : target.index < before.graph.size)
    (hraw : ∀ object, raw.object? = some object → GrownBy start before object p)
    (hassign : p.assign target type name raw = .ok next) : Grown start before next := by
  cases Pass.assigned_of_assign hassign with
  | shared => exact h.same rfl rfl
  | dangling => exact h
  | bound c store property binding text _ _ _ _ _ hread hstore =>
    -- a binding refers to nothing that counts
    have hsame : ∀ x, (ObjectState.references { c.toObjectState with
        store := some (store.setBinding property binding) }).count x ≤
        c.references.count x + (none : Option ObjectId).toList.count x := by
      intro x
      rw [ObjectState.count_references, ObjectState.count_references,
        ObjectState.objectValues_of_store hstore]
      exact Nat.le_add_right _ _
    exact h.write htarget hread none hsame (fun _ hnone => by cases hnone) rfl rfl
  | managed c store property value _ _ _ hvalue hread hstore =>
    have hcount := count_references_setValue c hstore property value
    rw [object?_of_coerce hvalue] at hcount
    exact h.write htarget hread _ hcount hraw rfl rfl
  | plain c state kind value _ _ _ _ hvalue hread hwrite =>
    have hcount := count_references_setPlain c name value
    rw [object?_of_coerce hvalue] at hcount
    rw [Pass.setPlain_eq_ok hwrite]
    exact h.write htarget hread _ hcount hraw rfl rfl

/-- An insertion makes its object refer to the child, and to nothing else that is new. -/
theorem Grown.insert {child : ObjectId} (h : GrownBy start before child p)
    (htarget : target.index < before.graph.size)
    (hinsert : p.insertChild target type child = (.ok (), next)) : Grown start before next := by
  have hadded : ∀ object, some child = some object → GrownBy start before object p := by
    intro object hobject
    cases hobject
    exact h
  have hinserted := p.inserted_insertChild target type child
  rw [hinsert] at hinserted
  cases hinserted with
  | item c items _ hread hitems =>
    refine h.toGrown.write htarget hread (some child) (fun x => ?_) hadded rfl rfl
    rw [ObjectState.count_references, ObjectState.count_references, hitems]
    show (items ++ [child]).count x + c.objectValues.count x +
      ((c.entries.map (·.values)).getD []).count x + c.plainObjects.count x ≤
        items.count x + _ + _ + _ + [child].count x
    rw [List.count_append]
    omega
  | entry c entries key _ _ _ hread hentries _ =>
    refine h.toGrown.write htarget hread (some child) (fun x => ?_) hadded rfl rfl
    have hcount := OrderedMap.count_filterMap_insert some entries key child x
    rw [List.filterMap_some, List.filterMap_some] at hcount
    rw [ObjectState.count_references, ObjectState.count_references, hentries]
    show _ + c.objectValues.count x + (entries.insert key child).values.count x +
      c.plainObjects.count x ≤
      _ + _ + entries.values.count x + _ + _
    dsimp only
    omega

end Writes

/-! ## Tags -/

section Elements

variable {start : Nat} {position : Nat → Option Position}

theorem Grown.applyAttributes {before p next : Pass} {object : ObjectId} {type : TypeInfo}
    (h : Grown start before p) (hobject : object.index < before.graph.size)
    (attrs : List Markup.Attribute)
    (happly : p.applyAttributes object type attrs = (.ok (), next)) :
    Grown start before next := by
  induction attrs generalizing p with
  | nil => cases happly; exact h
  | cons attr attrs ih =>
    rw [Pass.applyAttributes] at happly
    cases hattr : p.applyAttribute object type attr with
    | error error => rw [hattr] at happly; cases happly
    | ok between =>
      rw [hattr] at happly
      have hbetween : Grown start before between := by
        unfold Pass.applyAttribute at hattr
        cases hrole : Pass.roleOf attr.name with
        | property name =>
          rw [hrole] at hattr
          exact h.assign hobject (fun _ hnone => by cases hnone) hattr
        | key => rw [hrole] at hattr; cases hattr; exact h.same rfl rfl
        | ignored => rw [hrole] at hattr; cases hattr; exact h
      exact ih hbetween happly

/-- A tag makes one object. -/
theorem grownBy_openElement {p q : Pass} {tag : StartTag} {place : Nat} {opened : OpenElement}
    (hnew : p.resolver.catalog.NewObjectsAlone) (hforest : p.graph.Forest start)
    (h : openElement position p none tag place = (.ok opened, q)) :
    GrownBy start p opened.object q := by
  obtain ⟨type, resolved, taken, made, hresolve, htake, happly, rfl⟩ := openElement_eq_ok h
  have hgraph := p.graph_resolveTag tag
  have hcatalog := p.catalog_resolveTag tag
  rw [hresolve] at hgraph hcatalog
  rw [Pass.takeObject] at htake
  cases hconstruct : construct resolved.graph type with
  | error error => rw [hconstruct] at htake; cases htake
  | ok new =>
    obtain ⟨object, graph⟩ := new
    rw [hconstruct] at htake
    cases htake
    obtain ⟨state, hstate, halloc⟩ := construct_eq_ok hconstruct
    rw [hgraph] at halloc
    cases halloc
    have halone : ({ state with type := type } : Component).references = [] :=
      hnew type state (Pass.contains_of_resolveTag hresolve) hstate
    have hsize := Graph.size_alloc p.graph { state with type := type }
    have hfree : p.graph.indegree ⟨p.graph.size⟩ = 0 :=
      hforest.closed.indegree_eq_zero (Nat.le_refl p.graph.size)
    -- behind the construction; then the attributes follow, which are texts
    have hmade : GrownBy start p ⟨p.graph.size⟩
        { resolved with graph := (p.graph.alloc { state with type := type }).2 } := by
      refine ⟨⟨hcatalog, ?_, hforest.alloc halone, fun x _ => ?_⟩, Nat.le_refl _, ?_, ?_⟩
      · rw [hsize]
        exact Nat.le_succ _
      · rw [Graph.indegree_alloc, halone]
        exact Nat.le_refl _
      · rw [hsize]
        exact Nat.lt_succ_self _
      · rw [Graph.indegree_alloc, halone, hfree]
        rfl
    exact hmade.trans ((Grown.refl hmade.forest).applyAttributes hmade.known _ happly)

/-! ## The induction -/

mutual

theorem grownBy_evaluateElement {p q : Pass} {object : ObjectId}
    (hnew : p.resolver.catalog.NewObjectsAlone) (hforest : p.graph.Forest start) :
    (element : Element) → evaluateElement position p none element = (.ok object, q) →
    GrownBy start p object q
  | .selfClosed _ tag _, h => by
    rw [evaluateElement, Located.andThen_eq_ok] at h
    obtain ⟨opened, between, hopen, hend⟩ := h
    cases hend
    exact grownBy_openElement hnew hforest (Outcome.arisingAt_eq_ok.1 hopen)
  | .enclosing _ tag _ contents _, h => by
    rw [evaluateElement, Located.andThen_eq_ok] at h
    obtain ⟨opened, between, hopen, hinside⟩ := h
    rw [Located.andThen_eq_ok] at hinside
    obtain ⟨⟨⟩, after, hcontents, hend⟩ := hinside
    cases hend
    have hopened := grownBy_openElement hnew hforest (Outcome.arisingAt_eq_ok.1 hopen)
    have hnew' : between.resolver.catalog.NewObjectsAlone := hopened.catalog ▸ hnew
    exact hopened.trans (grown_evaluateContents hnew' hopened.forest hopened.known contents
      hcontents)

/-- The contents of an element grow below its object, child by child. -/
theorem grown_evaluateContents {p q : Pass} {parent : OpenElement}
    (hnew : p.resolver.catalog.NewObjectsAlone) (hforest : p.graph.Forest start)
    (hparent : parent.object.index < p.graph.size) :
    (contents : Contents) → evaluateContents position p parent contents = (.ok (), q) →
    Grown start p q
  | .none, h => by cases h; exact .refl hforest
  | .text _ _ rest, h => grown_evaluateContents hnew hforest hparent rest h
  | .blank _ rest, h => grown_evaluateContents hnew hforest hparent rest h
  | .element child rest, h => by
    obtain ⟨here, hposition⟩ := position_of_evaluateContents h
    simp only [evaluateContents, hposition] at h
    have hrest : ∀ next, Grown start p next →
        evaluateContents position next parent rest = (.ok (), q) → Grown start p q := by
      intro next hnext hrest
      have hnew' : next.resolver.catalog.NewObjectsAlone := hnext.catalog ▸ hnew
      have hparent' := Nat.lt_of_lt_of_le hparent hnext.size
      exact hnext.trans (grown_evaluateContents hnew' hnext.forest hparent' rest hrest)
    split at h
    · cases hnamed : namedProperty? parent.tag child.tag with
      | none => rw [hnamed] at h; cases h
      | some property =>
        simp only [hnamed, Located.andThen_eq_ok] at h
        obtain ⟨value, between, hvalue, ⟨⟩, next, hassign, hbehind⟩ := h
        obtain ⟨hgrown, hobject⟩ := grown_evaluateValue hnew hforest child hvalue
        have hassigned := assignProperty_eq_ok (Outcome.arisingAt_eq_ok.1 hassign)
        exact hrest next (hgrown.assign hparent hobject hassigned) hbehind
    · simp only [Located.andThen_eq_ok] at h
      obtain ⟨object, between, hchild, ⟨⟩, next, hinsert, hbehind⟩ := h
      have hgrown := grownBy_evaluateElement hnew hforest child hchild
      have hinserted := insertObject_eq_ok (Outcome.arisingAt_eq_ok.1 hinsert)
      exact hrest next (Grown.insert hgrown hparent hinserted) hbehind

theorem grown_evaluateValue {p q : Pass} {raw : RawValue}
    (hnew : p.resolver.catalog.NewObjectsAlone) (hforest : p.graph.Forest start) :
    (element : Element) → evaluateValue position p element = (.ok raw, q) →
    GrownByValue start p raw q
  | .selfClosed _ _ _, h => by cases h
  | .enclosing _ _ _ contents _, h => grown_evaluateSingle hnew hforest contents h

theorem grown_evaluateSingle {p q : Pass} {raw : RawValue} {tag : StartTag} {behind : Place}
    (hnew : p.resolver.catalog.NewObjectsAlone) (hforest : p.graph.Forest start) :
    (contents : Contents) → evaluateSingle position p tag behind contents = (.ok raw, q) →
    GrownByValue start p raw q
  | .none, h => by cases h
  | .blank _ rest, h => grown_evaluateSingle hnew hforest rest h
  | .text _ content rest, h => by
    obtain ⟨rfl, rfl⟩ := onlyValue_eq_ok h
    exact ⟨.refl hforest, fun _ hnone => by cases hnone⟩
  | .element child rest, h => by
    rw [evaluateSingle] at h
    split at h
    · cases h
    · rw [Located.andThen_eq_ok] at h
      obtain ⟨object, between, hchild, honly⟩ := h
      obtain ⟨rfl, rfl⟩ := onlyValue_eq_ok honly
      have hgrown := grownBy_evaluateElement hnew hforest child hchild
      refine ⟨hgrown.toGrown, fun given hgiven => ?_⟩
      cases hgiven
      exact hgrown

end

end Elements

/-- **A load grows a tree**: from the objects that there were on, the graph is a forest, and its
root is a new object that nothing refers to. -/
theorem grown_of_load {g after : Graph} {catalog : Catalog} {localModule : Option String}
    {text : String} {root : ObjectId} (hclosed : g.Closed) (hnew : catalog.NewObjectsAlone)
    (h : LoadRequest.load ⟨g, catalog, localModule, none⟩ text = (.ok root, after)) :
    after.Forest g.size ∧ g.size ≤ root.index ∧ root.index < after.size ∧
    after.indegree root = 0 := by
  obtain ⟨doc, -, q, hevaluate, rfl⟩ := exists_evaluation_of_load h
  have hgrown : GrownBy g.size (LoadRequest.pass ⟨g, catalog, localModule, none⟩) root q :=
    grownBy_evaluateElement hnew hclosed.forest doc.root hevaluate
  exact ⟨hgrown.forest, hgrown.later, hgrown.known, hgrown.free⟩

end Hydration

end MarkupForms
