import MarkupForms.Proofs.Hydration.Atomicity
import MarkupForms.Proofs.Hydration.Bystanders
import MarkupForms.Proofs.Hydration.Mirror

/-!
# The last write counts

An element writes to a property of its object with attributes, in order, and then with the property
elements inside it, in order. Values and bindings are kept apart: the last write that is no binding
gives the value, the last one that is gives the binding, and what no write touches is as it was
(`LastWrites`). Whatever else stands inside the element, and whatever follows it, has no part in
this.
-/

namespace MarkupForms.Hydration

open Markup

/-! ## Writes -/

/-- A write to a property: what is written, and the resources that are declared by then. -/
structure Write where
  raw : RawValue
  resources : ResourceTable

/-- Whether a write attaches a binding, and so writes no value. -/
def Write.binds (write : Write) : Bool :=
  match write.raw with
  | .text text => Pass.isExpression text
  | .object _ => false

theorem Write.binds_eq_false {write : Write}
    (h : ∀ text, write.raw = .text text → Pass.isExpression text = false) :
    write.binds = false := by
  obtain ⟨raw, resources⟩ := write
  cases raw with
  | text text => exact h text rfl
  | object id => rfl

/-- The last write of a value. -/
def lastValue? (writes : List Write) : Option Write :=
  (writes.filter (!·.binds)).getLast?

/-- The last write of a binding. -/
def lastBinding? (writes : List Write) : Option Write :=
  (writes.filter (·.binds)).getLast?

theorem lastValue?_append (first second : List Write) :
    lastValue? (first ++ second) = (lastValue? second).or (lastValue? first) := by
  rw [lastValue?, List.filter_append, List.getLast?_append]
  rfl

theorem lastBinding?_append (first second : List Write) :
    lastBinding? (first ++ second) = (lastBinding? second).or (lastBinding? first) := by
  rw [lastBinding?, List.filter_append, List.getLast?_append]
  rfl

theorem lastValue?_single (write : Write) :
    lastValue? [write] = if write.binds then none else some write := by
  unfold lastValue?
  cases hbinds : write.binds <;> simp [hbinds]

theorem lastBinding?_single (write : Write) :
    lastBinding? [write] = if write.binds then some write else none := by
  unfold lastBinding?
  cases hbinds : write.binds <;> simp [hbinds]

/-! ## What writes come to -/

/-- The value where the type keeps the property: in the store if the property is a managed one, else
among the plain values. -/
def valueIn? (type : TypeInfo) (name : String) (c : Component) : Option Value :=
  if (type.findManaged name).isSome then c.store.bind (·.value? name) else c.plain? name

/-- The value under the same name in the other place. -/
def valueBeside? (type : TypeInfo) (name : String) (c : Component) : Option Value :=
  if (type.findManaged name).isSome then c.plain? name else c.store.bind (·.value? name)

/-- What an object was before and is after writes to the property `name`, the type of the element
being `type`. -/
structure LastWrites (type : TypeInfo) (name : String) (writes : List Write)
    (before after : Component) :
    Prop where
  written : ∀ write, lastValue? writes = some write →
    ∃ kind value, writtenKind? type name = some kind ∧
    (∀ typeOf, coerce typeOf kind name write.raw = .ok value) ∧
    valueIn? type name after = some value
  unwritten : lastValue? writes = none → valueIn? type name after = valueIn? type name before
  beside : valueBeside? type name after = valueBeside? type name before
  bound : ∀ write, lastBinding? writes = some write → ∃ text binding, write.raw = .text text ∧
    Pass.readBinding write.resources text = .ok binding ∧ after.binding? name = some binding
  unbound : lastBinding? writes = none → after.binding? name = before.binding? name

namespace LastWrites

variable {type : TypeInfo} {name : String} {before between after : Component}

/-- No write: the values and the binding under the name are the same. -/
theorem nothing (hstored : after.store.bind (·.value? name) = before.store.bind (·.value? name))
    (hplain : after.plain? name = before.plain? name)
    (hbinding : after.binding? name = before.binding? name) :
    LastWrites type name [] before after where
  written _ h := by cases h
  unwritten _ := by simp only [valueIn?, hstored, hplain]
  beside := by simp only [valueBeside?, hstored, hplain]
  bound _ h := by cases h
  unbound _ := hbinding

theorem refl (c : Component) : LastWrites type name [] c c :=
  nothing rfl rfl rfl

/-- One write of a value. -/
theorem value {write : Write} {kind : ValueKind} {value : Value} (hbinds : write.binds = false)
    (hkind : writtenKind? type name = some kind)
    (hvalue : ∀ typeOf, coerce typeOf kind name write.raw = .ok value)
    (hin : valueIn? type name after = some value)
    (hbeside : valueBeside? type name after = valueBeside? type name before)
    (hbinding : after.binding? name = before.binding? name) :
    LastWrites type name [write] before after where
  written last hlast := by
    rw [lastValue?_single, hbinds] at hlast
    cases hlast
    exact ⟨kind, value, hkind, hvalue, hin⟩
  unwritten hlast := by
    rw [lastValue?_single, hbinds] at hlast
    cases hlast
  beside := hbeside
  bound last hlast := by
    rw [lastBinding?_single, hbinds] at hlast
    cases hlast
  unbound _ := hbinding

/-- One write of a binding. -/
theorem binding {write : Write} {text : String} {binding : Binding} (hraw : write.raw = .text text)
    (hbinds : write.binds = true) (hread : Pass.readBinding write.resources text = .ok binding)
    (hbinding : after.binding? name = some binding)
    (hstored : after.store.bind (·.value? name) = before.store.bind (·.value? name))
    (hplain : after.plain? name = before.plain? name) :
    LastWrites type name [write] before after where
  written last hlast := by
    rw [lastValue?_single, hbinds] at hlast
    cases hlast
  unwritten _ := by simp only [valueIn?, hstored, hplain]
  beside := by simp only [valueBeside?, hstored, hplain]
  bound last hlast := by
    rw [lastBinding?_single, hbinds] at hlast
    cases hlast
    exact ⟨text, binding, hraw, hread, hbinding⟩
  unbound hlast := by
    rw [lastBinding?_single, hbinds] at hlast
    cases hlast

/-- Writes and then more of them. -/
theorem append {first second : List Write} (h : LastWrites type name first before between)
    (h' : LastWrites type name second between after) :
    LastWrites type name (first ++ second) before after where
  written write hlast := by
    rw [lastValue?_append] at hlast
    cases hsecond : lastValue? second with
    | some last =>
      rw [hsecond] at hlast
      cases hlast
      exact h'.written write hsecond
    | none =>
      rw [hsecond, Option.none_or] at hlast
      rw [h'.unwritten hsecond]
      exact h.written write hlast
  unwritten hlast := by
    rw [lastValue?_append, Option.or_eq_none_iff] at hlast
    exact (h'.unwritten hlast.1).trans (h.unwritten hlast.2)
  beside := h'.beside.trans h.beside
  bound write hlast := by
    rw [lastBinding?_append] at hlast
    cases hsecond : lastBinding? second with
    | some last =>
      rw [hsecond] at hlast
      cases hlast
      exact h'.bound write hsecond
    | none =>
      rw [hsecond, Option.none_or] at hlast
      rw [h'.unbound hsecond]
      exact h.bound write hlast
  unbound hlast := by
    rw [lastBinding?_append, Option.or_eq_none_iff] at hlast
    exact (h'.unbound hlast.1).trans (h.unbound hlast.2)

end LastWrites

/-! ## One write -/

section Assign

variable {p next : Pass} {target : ObjectId} {type : TypeInfo} {assigned name : String}
  {raw : RawValue} {c : Component}

theorem coerce_congr {typeOf : ObjectId → String} {kind : ValueKind} {value : Value}
    (h : coerce typeOf kind name raw = .ok value) (other : ObjectId → String) :
    coerce other kind name raw = .ok value := by
  cases raw with
  | text text => exact h
  | object id => cases kind <;> first | exact h | cases h

/-- An accepted assignment is a write to its own property and none to any other. -/
theorem lastWrites_assign (hname : name ≠ "Resources") (hread : p.graph.component? target = some c)
    (h : p.assign target type assigned raw = .ok next) :
    ∃ written, next.graph.component? target = some written ∧
      LastWrites type name (if assigned = name then [⟨raw, p.resources⟩] else []) c written := by
  cases Pass.assigned_of_assign h with
  | shared container entries hresources =>
    rw [if_neg (by rintro rfl; exact hname hresources)]
    exact ⟨c, hread, .refl c⟩
  | dangling kind _ _ _ hgone =>
    rw [hread] at hgone
    cases hgone
  | bound c' store property binding text _ hraw htext hfind hbinding hthere hstore =>
    cases hread.symm.trans hthere
    refine ⟨_, Graph.component?_set_self hread _, ?_⟩
    have hproperty := TypeInfo.name_of_findManaged hfind
    subst hraw
    split
    · next hsame =>
      refine .binding rfl htext hbinding ?_ ?_ rfl
      · simp [ObjectState.binding?, PropertyStore.binding?_setBinding, hproperty, hsame]
      · simp [hstore]
    · next hother =>
      refine .nothing ?_ rfl ?_
      · simp [hstore]
      · simp [ObjectState.binding?, PropertyStore.binding?_setBinding, hproperty, hother, hstore]
  | managed c' store property value _ htext hfind hvalue hthere hstore =>
    cases hread.symm.trans hthere
    refine ⟨_, Graph.component?_set_self hread _, ?_⟩
    have hproperty := TypeInfo.name_of_findManaged hfind
    split
    · next hsame =>
      subst hsame
      refine .value (Write.binds_eq_false htext) (by simp [writtenKind?, hfind])
        (coerce_congr hvalue) ?_ ?_ ?_
      · simp [valueIn?, hfind, PropertyStore.value?_setValue, hproperty]
      · simp [valueBeside?, hfind, ObjectState.plain?]
      · simp [ObjectState.binding?, hstore]
    · next hother =>
      refine .nothing ?_ rfl ?_
      · simp [PropertyStore.value?_setValue, hproperty, hother, hstore]
      · simp [ObjectState.binding?, hstore]
  | plain c' state kind value _ htext hfind hplain hvalue hthere hwrite =>
    cases hread.symm.trans hthere
    cases Pass.setPlain_eq_ok hwrite
    refine ⟨_, Graph.component?_set_self hread _, ?_⟩
    split
    · next hsame =>
      subst hsame
      refine .value (Write.binds_eq_false htext) (by simp [writtenKind?, hfind, hplain])
        (coerce_congr hvalue) ?_ ?_ rfl
      · simp [valueIn?, hfind, ObjectState.plain?, OrderedMap.get?_insert]
      · simp [valueBeside?, hfind]
    · next hother =>
      refine .nothing rfl ?_ rfl
      simp [ObjectState.plain?, OrderedMap.get?_insert, hother]

/-- An assignment of a text leaves the resources as they are. -/
theorem resources_of_assign_text {text : String}
    (h : p.assign target type assigned (.text text) = .ok next) :
    next.resources = p.resources := by
  cases Pass.assigned_of_assign h with
  | shared container entries hresources hraw => cases hraw
  | bound => rfl
  | managed => rfl
  | plain => rfl
  | dangling => rfl

/-- An insertion writes to no property. -/
theorem lastWrites_insertChild {child : ObjectId} (hread : p.graph.component? target = some c) :
    ∃ written, (p.insertChild target type child).2.graph.component? target = some written ∧
      LastWrites type name [] c written := by
  have hinserted := p.inserted_insertChild target type child
  generalize p.insertChild target type child = outcome at hinserted
  cases hinserted with
  | item c' items _ hthere =>
    cases hread.symm.trans hthere
    exact ⟨_, Graph.component?_set_self hread _, .nothing rfl rfl rfl⟩
  | entry c' entries key resources _ _ hthere =>
    cases hread.symm.trans hthere
    exact ⟨_, Graph.component?_set_self hread _, .nothing rfl rfl rfl⟩
  | refused => exact ⟨c, hread, .refl c⟩

end Assign

/-! ## Attributes -/

/-- Whether an attribute writes to the property `name`: it is of that name and in no namespace, or
it is the id among the metadata. -/
def WritesTo (name : String) (attr : Markup.Attribute) : Prop :=
  attr.name.uri = "" ∧ attr.name.localName = name ∨
    attr.name.uri = metadataNamespace ∧ attr.name.localName = "Id" ∧ name = "Id"

instance (name : String) : DecidablePred (WritesTo name) := fun _ =>
  inferInstanceAs (Decidable (_ ∨ _))

/-- The writes of attributes to the property `name`, in order. -/
def attributeWrites (name : String) (resources : ResourceTable) (attrs : List Markup.Attribute) :
    List Write :=
  (attrs.filter (WritesTo name)).map fun attr => ⟨.text attr.value, resources⟩

theorem writesTo_iff (name : String) (attr : Markup.Attribute) :
    WritesTo name attr ↔ Pass.roleOf attr.name = .property name := by
  have hdiffer : metadataNamespace ≠ "" := by decide
  unfold WritesTo Pass.roleOf
  by_cases hnone : attr.name.uri = ""
  · simp [hnone, hdiffer.symm]
  · by_cases hmetadata : attr.name.uri = metadataNamespace
    · by_cases hid : attr.name.localName = "Id"
      · simp [hmetadata, hdiffer, hid, eq_comm]
      · by_cases hkey : attr.name.localName = "Key" <;> simp [hmetadata, hdiffer, hid, hkey]
    · simp [hnone, hmetadata]

theorem attributeWrites_cons (name : String) (resources : ResourceTable) (attr : Markup.Attribute)
    (attrs : List Markup.Attribute) :
    attributeWrites name resources (attr :: attrs) =
      (if WritesTo name attr then [⟨.text attr.value, resources⟩] else []) ++
        attributeWrites name resources attrs := by
  unfold attributeWrites
  rw [List.filter_cons]
  by_cases hwrites : WritesTo name attr <;> simp [hwrites]

section Elements

variable {p q next : Pass} {object : ObjectId} {type : TypeInfo} {name : String} {c : Component}

theorem lastWrites_applyAttribute {attr : Markup.Attribute} (hname : name ≠ "Resources")
    (hread : p.graph.component? object = some c)
    (h : p.applyAttribute object type attr = .ok next) :
    next.resources = p.resources ∧ ∃ written, next.graph.component? object = some written ∧
      LastWrites type name (if WritesTo name attr then [⟨.text attr.value, p.resources⟩] else [])
        c written := by
  unfold Pass.applyAttribute at h
  cases hrole : Pass.roleOf attr.name with
  | property assigned =>
    rw [hrole] at h
    have hwrites : WritesTo name attr ↔ assigned = name := by
      rw [writesTo_iff, hrole, Pass.AttributeRole.property.injEq]
    refine ⟨resources_of_assign_text h, ?_⟩
    simp only [hwrites]
    exact lastWrites_assign hname hread h
  | key =>
    rw [hrole] at h
    cases h
    have hwrites : ¬ WritesTo name attr := by
      rw [writesTo_iff, hrole]
      simp
    rw [if_neg hwrites]
    exact ⟨rfl, c, hread, .refl c⟩
  | ignored =>
    rw [hrole] at h
    cases h
    have hwrites : ¬ WritesTo name attr := by
      rw [writesTo_iff, hrole]
      simp
    rw [if_neg hwrites]
    exact ⟨rfl, c, hread, .refl c⟩

theorem lastWrites_applyAttributes {attrs : List Markup.Attribute} (hname : name ≠ "Resources")
    (hread : p.graph.component? object = some c)
    (h : p.applyAttributes object type attrs = (.ok (), next)) :
    ∃ written, next.graph.component? object = some written ∧
      LastWrites type name (attributeWrites name p.resources attrs) c written := by
  induction attrs generalizing p c with
  | nil =>
    cases h
    exact ⟨c, hread, .refl c⟩
  | cons attr attrs ih =>
    rw [Pass.applyAttributes] at h
    cases hattr : p.applyAttribute object type attr with
    | error error => rw [hattr] at h; cases h
    | ok between =>
      rw [hattr] at h
      obtain ⟨hresources, first, hfirst, hone⟩ := lastWrites_applyAttribute hname hread hattr
      obtain ⟨written, hwritten, hrest⟩ := ih hfirst h
      rw [hresources] at hrest
      rw [attributeWrites_cons]
      exact ⟨written, hwritten, hone.append hrest⟩

end Elements

/-! ## Contents -/

section Contents

/- The position of an offset in the document. -/
variable (position : Nat → Option Position)

/-- The writes of a child to the property `name` of its parent: none, or one of a property element
of that name. Its value is what is found in it, the very object if it holds an element. -/
def childWrites (name : String) (p : Pass) (parent : OpenElement) (child : Element) : List Write :=
  if child.tag.isPropertyElement ∧ namedProperty? parent.tag child.tag = some name then
    match evaluateValue position p child with
    | (.ok raw, q) => [⟨raw, q.resources⟩]
    | (.error _, _) => []
  else []

/-- The writes of contents to the property `name` of what stands around them, in order. -/
def contentWrites (name : String) (p : Pass) (parent : OpenElement) : Contents → List Write
  | .none => []
  | .text _ _ rest | .blank _ rest => contentWrites name p parent rest
  | .element child rest =>
    childWrites position name p parent child ++
      contentWrites name (evaluateContents position p parent (.element child .none)).2 parent rest

variable {position}
variable {p q : Pass} {parent : OpenElement} {object made : ObjectId} {name : String}
  {c : Component} {child : Element}

/-- Contents are evaluated child by child. -/
theorem evaluateContents_cons (p : Pass) (parent : OpenElement) (child : Element)
    (rest : Contents) :
    evaluateContents position p parent (.element child rest) =
      (evaluateContents position p parent (.element child .none)).andThen fun _ p =>
        evaluateContents position p parent rest := by
  rw [evaluateContents, evaluateContents]
  split
  · rfl
  split
  · cases namedProperty? parent.tag child.tag with
    | none => rfl
    | some property =>
      simp only [Located.andThen_assoc]
      rfl
  · simp only [Located.andThen_assoc]
    rfl

/-- What the evaluation of a child does that succeeds: a property element is assigned, another
element is inserted. -/
inductive ChildRead (position : Nat → Option Position) (p : Pass) (parent : OpenElement)
    (child : Element) (q : Pass) :
    Prop where
  | assigned {property : String} {raw : RawValue} {between : Pass}
      (hproperty : child.tag.isPropertyElement = true)
      (hnamed : namedProperty? parent.tag child.tag = some property)
      (hvalue : evaluateValue position p child = (.ok raw, between))
      (hassign : between.assign parent.object parent.type property raw = .ok q) :
      ChildRead position p parent child q
  | inserted {made : ObjectId} {between : Pass} (hobject : child.tag.isPropertyElement = false)
      (hchild : evaluateElement position p none child = (.ok made, between))
      (hinsert : between.insertChild parent.object parent.type made = (.ok (), q)) :
      ChildRead position p parent child q

theorem childRead_of_evaluateContents
    (h : evaluateContents position p parent (.element child .none) = (.ok (), q)) :
    ChildRead position p parent child q := by
  obtain ⟨here, hposition⟩ := position_of_evaluateContents h
  simp only [evaluateContents, hposition] at h
  split at h
  · next hproperty =>
    cases hnamed : namedProperty? parent.tag child.tag with
    | none => rw [hnamed] at h; cases h
    | some property =>
      simp only [hnamed, Located.andThen_eq_ok] at h
      obtain ⟨raw, between, hvalue, ⟨⟩, next, hassign, hend⟩ := h
      cases hend
      exact .assigned hproperty hnamed hvalue
        (assignProperty_eq_ok (Outcome.arisingAt_eq_ok.1 hassign))
  · next hobject =>
    simp only [Located.andThen_eq_ok] at h
    obtain ⟨made, between, hchild, ⟨⟩, next, hinsert, hend⟩ := h
    cases hend
    exact .inserted (Bool.eq_false_iff.2 hobject) hchild
      (insertObject_eq_ok (Outcome.arisingAt_eq_ok.1 hinsert))

theorem holds_keeps (hread : p.graph.component? object = some c) :
    (keeps fun id d => id = object ∧ d = c).Holds p := by
  rintro _ _ ⟨rfl, rfl⟩
  exact hread

/-- A new element leaves an object alone that is there. -/
theorem component?_evaluateElement (hread : p.graph.component? object = some c)
    (h : evaluateElement position p none child = (.ok made, q)) :
    q.graph.component? object = some c := by
  have hyields := PassInvariant.evaluateElement position none (holds_keeps hread) child
    fun _ h => by cases h
  rw [h] at hyields
  exact hyields.1.holds object c ⟨rfl, rfl⟩

theorem component?_evaluateValue {raw : RawValue} (hread : p.graph.component? object = some c)
    (h : evaluateValue position p child = (.ok raw, q)) : q.graph.component? object = some c := by
  have hyields := PassInvariant.evaluateValue position (holds_keeps hread) child
  rw [h] at hyields
  exact hyields.1.holds object c ⟨rfl, rfl⟩

/-- Step: a child writes what it is a property element for, and nothing else of its parent's
properties. -/
theorem lastWrites_child (hname : name ≠ "Resources")
    (hread : p.graph.component? parent.object = some c)
    (h : evaluateContents position p parent (.element child .none) = (.ok (), q)) :
    ∃ written, q.graph.component? parent.object = some written ∧
      LastWrites parent.type name (childWrites position name p parent child) c written := by
  unfold childWrites
  cases childRead_of_evaluateContents h with
  | @assigned property raw between hproperty hnamed hvalue hassign =>
    have hthere := component?_evaluateValue hread hvalue
    obtain ⟨written, hwritten, hone⟩ := lastWrites_assign hname hthere hassign
    refine ⟨written, hwritten, ?_⟩
    simp only [hproperty, hnamed, hvalue, Option.some.injEq, true_and]
    exact hone
  | @inserted made between hobject hchild hinsert =>
    have hthere := component?_evaluateElement hread hchild
    have hinsertion : ∃ written,
        (between.insertChild parent.object parent.type made).2.graph.component? parent.object =
            some written ∧
          LastWrites parent.type name [] c written := lastWrites_insertChild hthere
    obtain ⟨written, hwritten, hnone⟩ := hinsertion
    rw [hinsert] at hwritten
    rw [if_neg (by simp [hobject])]
    exact ⟨written, hwritten, hnone⟩

/-- Run: the children of an element write to it one after the other. -/
theorem lastWrites_contents {p : Pass} {c : Component} (hname : name ≠ "Resources")
    (hread : p.graph.component? parent.object = some c) :
    (contents : Contents) → evaluateContents position p parent contents = (.ok (), q) →
    ∃ written, q.graph.component? parent.object = some written ∧
      LastWrites parent.type name (contentWrites position name p parent contents) c written
  | .none, h => by
    cases h
    exact ⟨c, hread, .refl c⟩
  | .text _ _ rest, h => lastWrites_contents hname hread rest h
  | .blank _ rest, h => lastWrites_contents hname hread rest h
  | .element child rest, h => by
    rw [evaluateContents_cons, Located.andThen_eq_ok] at h
    obtain ⟨⟨⟩, between, hchild, hrest⟩ := h
    obtain ⟨first, hfirst, hone⟩ := lastWrites_child hname hread hchild
    obtain ⟨written, hwritten, hmore⟩ := lastWrites_contents hname hfirst rest hrest
    rw [contentWrites, hchild]
    exact ⟨written, hwritten, hone.append hmore⟩

end Contents

/-! ## Elements -/

/-- The object that an element of type `type` is read into, before anything is written to it: the
given one, or a new one as the type's constructor leaves it. -/
inductive ReadInto (g : Graph) (type : TypeInfo) : Option ObjectId → ObjectId → Component →
    Prop where
  | given {object : ObjectId} {c : Component} (hread : g.component? object = some c) :
      ReadInto g type (some object) object c
  | new {state : ObjectState} (hstate : type.constructor = some state) :
      ReadInto g type none ⟨g.size⟩ { state with type := type }

/-- The writes of an element to the property `name` of its object: attributes, then children. -/
def elementWrites (position : Nat → Option Position) (name : String) (p : Pass)
    (given : Option ObjectId) (element : Element) : List Write :=
  attributeWrites name p.resources element.tag.attributes ++
    match openElement position p given element.tag element.place.start with
    | (.ok opened, q) => contentWrites position name q opened element.contents
    | (.error _, _) => []

section Elements

variable {position : Nat → Option Position} {p q : Pass} {given : Option ObjectId}
  {object : ObjectId} {name : String}

/-- An element that is evaluated is opened, and then its contents are evaluated. -/
theorem evaluateElement_eq_ok {element : Element}
    (h : evaluateElement position p given element = (.ok object, q)) :
    ∃ opened between, openElement position p given element.tag element.place.start =
      (.ok opened, between) ∧
      evaluateContents position between opened element.contents = (.ok (), q) ∧
      opened.object = object := by
  cases element with
  | selfClosed place tag closes =>
    rw [evaluateElement, Located.andThen_eq_ok] at h
    obtain ⟨opened, between, hopen, hend⟩ := h
    cases hend
    exact ⟨opened, q, Outcome.arisingAt_eq_ok.1 hopen, rfl, rfl⟩
  | enclosing place tag opens contents behind =>
    rw [evaluateElement, Located.andThen_eq_ok] at h
    obtain ⟨opened, between, hopen, hinside⟩ := h
    rw [Located.andThen_eq_ok] at hinside
    obtain ⟨⟨⟩, after, hcontents, hend⟩ := hinside
    cases hend
    exact ⟨opened, between, Outcome.arisingAt_eq_ok.1 hopen, hcontents, rfl⟩

theorem readInto_of_takeObject {type : TypeInfo}
    (hgiven : ∀ root, given = some root → root.index < p.graph.size)
    (h : p.takeObject type given = (.ok object, q)) :
    ∃ before, ReadInto p.graph type given object before ∧ q.graph.component? object = some before ∧
      q.resources = p.resources := by
  cases given with
  | some root =>
    have hthere : root.index < p.graph.components.size := hgiven root rfl
    have hread : p.graph.component? root = some p.graph.components[root.index] :=
      Array.getElem?_eq_getElem hthere
    cases h
    exact ⟨_, .given hread, hread, rfl⟩
  | none =>
    rw [Pass.takeObject] at h
    cases hmade : construct p.graph type with
    | error error => rw [hmade] at h; cases h
    | ok made =>
      obtain ⟨new, graph⟩ := made
      rw [hmade] at h
      cases h
      obtain ⟨state, hstate, halloc⟩ := construct_eq_ok hmade
      cases halloc
      exact ⟨_, .new hstate, Graph.component?_alloc_new _ _, rfl⟩

/-- The start of an element writes its attributes. -/
theorem lastWrites_openElement {tag : StartTag} {start : Nat} {opened : OpenElement}
    (hname : name ≠ "Resources") (hgiven : ∀ root, given = some root → root.index < p.graph.size)
    (h : openElement position p given tag start = (.ok opened, q)) :
    ∃ before written, (p.resolveTag tag).1 = .ok opened.type ∧
      ReadInto p.graph opened.type given opened.object before ∧
      q.graph.component? opened.object = some written ∧
      LastWrites opened.type name (attributeWrites name p.resources tag.attributes) before
        written := by
  obtain ⟨type, resolved, taken, made, hresolve, htake, happly, rfl⟩ := openElement_eq_ok h
  have hgraph := p.graph_resolveTag tag
  have hresources : (p.resolveTag tag).2.resources = p.resources := rfl
  rw [hresolve] at hgraph hresources
  obtain ⟨before, hinto, hthere, hsame⟩ :=
    readInto_of_takeObject (by rw [hgraph]; exact hgiven) htake
  obtain ⟨written, hwritten, hlast⟩ := lastWrites_applyAttributes hname hthere happly
  rw [hsame, hresources] at hlast
  rw [hgraph] at hinto
  exact ⟨before, written, congrArg Prod.fst hresolve, hinto, hwritten, hlast⟩

/-- **An element's last writes count**, for the object that it is read into. -/
theorem lastWrites_element {element : Element} (hname : name ≠ "Resources")
    (hgiven : ∀ root, given = some root → root.index < p.graph.size)
    (h : evaluateElement position p given element = (.ok object, q)) :
    ∃ type before after, (p.resolveTag element.tag).1 = .ok type ∧
      ReadInto p.graph type given object before ∧ q.graph.component? object = some after ∧
      LastWrites type name (elementWrites position name p given element) before after := by
  obtain ⟨opened, between, hopen, hcontents, rfl⟩ := evaluateElement_eq_ok h
  obtain ⟨before, first, htype, hinto, hfirst, hattributes⟩ :=
    lastWrites_openElement hname hgiven hopen
  obtain ⟨after, hafter, hinside⟩ := lastWrites_contents hname hfirst element.contents hcontents
  refine ⟨opened.type, before, after, htype, hinto, hafter, ?_⟩
  rw [elementWrites, hopen]
  exact hattributes.append hinside

end Elements

/-! ## Nested objects -/

section Nested

variable {position : Nat → Option Position} {name : String} {id : ObjectId}

/-- An object in a property element is the object of the element there. -/
theorem evaluateSingle_object {p q : Pass} {tag : StartTag} {behind : Place} :
    (contents : Contents) → evaluateSingle position p tag behind contents = (.ok (.object id), q) →
    ∃ inner ∈ contents.inner, ∃ r, evaluateElement position p none inner = (.ok id, r)
  | .none, h => by cases h
  | .blank _ rest, h => evaluateSingle_object rest h
  | .text _ _ _, h => by cases (onlyValue_eq_ok h).1
  | .element child rest, h => by
    rw [evaluateSingle] at h
    split at h
    · cases h
    · rw [Located.andThen_eq_ok] at h
      obtain ⟨object, between, hchild, honly⟩ := h
      cases (onlyValue_eq_ok honly).1
      exact ⟨child, by simp [Contents.inner], between, hchild⟩

theorem evaluateValue_object {p q : Pass} {element : Element}
    (h : evaluateValue position p element = (.ok (.object id), q)) :
    ∃ inner ∈ element.inner, ∃ r, evaluateElement position p none inner = (.ok id, r) := by
  cases element with
  | selfClosed place tag closes => cases h
  | enclosing place tag opens contents behind => exact evaluateSingle_object contents h

/-- An object that contents write is the object of an element in them. -/
theorem object_of_mem_contentWrites {p : Pass} {parent : OpenElement} {write : Write}
    (hraw : write.raw = .object id) :
    (contents : Contents) → write ∈ contentWrites position name p parent contents →
    ∃ inner ∈ contents.inner, ∃ before after, evaluateElement position before none inner =
      (.ok id, after)
  | .none, h => by cases h
  | .text _ _ rest, h => object_of_mem_contentWrites hraw rest h
  | .blank _ rest, h => object_of_mem_contentWrites hraw rest h
  | .element child rest, h => by
    rw [contentWrites, List.mem_append] at h
    rw [Contents.inner]
    rcases h with hchild | hrest
    · unfold childWrites at hchild
      split at hchild
      · rcases hvalue : evaluateValue position p child with ⟨error | raw, q⟩
        · rw [hvalue] at hchild
          cases hchild
        · rw [hvalue, List.mem_singleton] at hchild
          subst hchild
          cases hraw
          obtain ⟨inner, hinner, after, hread⟩ := evaluateValue_object hvalue
          exact ⟨inner, by simp [hinner], p, after, hread⟩
      · cases hchild
    · obtain ⟨inner, hinner, before, after, hread⟩ := object_of_mem_contentWrites hraw rest hrest
      exact ⟨inner, by simp [hinner], before, after, hread⟩

theorem object_of_mem_elementWrites {p : Pass} {given : Option ObjectId} {element : Element}
    {write : Write} (hraw : write.raw = .object id)
    (h : write ∈ elementWrites position name p given element) :
    ∃ inner ∈ element.inner, ∃ before after, evaluateElement position before none inner =
      (.ok id, after) := by
  rw [elementWrites, List.mem_append] at h
  rcases h with hattribute | hinside
  · obtain ⟨attr, -, rfl⟩ := List.mem_map.1 hattribute
    cases hraw
  · split at hinside
    · rw [← Element.inner_contents]
      exact object_of_mem_contentWrites hraw element.contents hinside
    · cases hinside

/-- A nested object is written as it is. -/
theorem LastWrites.object {type : TypeInfo} {writes : List Write} {before after : Component}
    {write : Write} (h : LastWrites type name writes before after)
    (hlast : lastValue? writes = some write) (hraw : write.raw = .object id) :
    valueIn? type name after = some (.object id) := by
  obtain ⟨kind, value, -, hvalue, hin⟩ := h.written write hlast
  have hcoerce := hvalue fun _ => ""
  rw [hraw] at hcoerce
  cases kind <;> cases hcoerce
  exact hin

end Nested

/-! ## Runs -/

/-- The object that the next element is read into, if it is the root element and one is given. -/
def Stage.given? : Stage → Option ObjectId
  | .prolog root => root
  | .content _ _ | .epilog _ => none

/-- The open elements, the innermost first. -/
def Stage.opened : Stage → List OpenElement
  | .content element outer => element :: outer
  | .prolog _ | .epilog _ => []

/-- Whether a tag at the offset `start` starts an element that is read into an object here: the root
element, or one inside another element, where it needs a position, or inside a property element that
has no value yet. -/
def Stage.Starts (position : Nat → Option Position) (start : Nat) (tag : StartTag) : Stage → Prop
  | .prolog _ => True
  | .content element _ =>
    tag.isPropertyElement = false ∧ (element.property = none → (position start).isSome) ∧
      ∀ slot, element.property = some slot → slot.value = none
  | .epilog _ => False

theorem step_of_starts {position : Nat → Option Position} {p : Pass} {stage : Stage}
    {tag : StartTag} {start : Nat} (h : stage.Starts position start tag) :
    step position p stage start (.element tag) =
      startElement position p stage.given? tag start stage.opened := by
  cases stage with
  | prolog root => rfl
  | content element outer =>
    obtain ⟨hobject, hplace, hempty⟩ := h
    rw [step]
    cases hproperty : element.property with
    | none =>
      obtain ⟨here, hposition⟩ := Option.isSome_iff_exists.1 (hplace hproperty)
      simp [stepElement, hobject, hposition, Stage.given?, Stage.opened]
    | some slot => simp [stepProperty, hempty slot hproperty, hobject, Stage.given?, Stage.opened]
  | epilog root => exact h.elim

/-- Where a load has come to, every open object is in the graph, and so is the object that is given
for the root element while that has not started. -/
theorem known_of_reaches {request : LoadRequest} {text : String} {position : Nat → Option Position}
    {p : Pass} {stage : Stage} {unread : NodeFeed}
    (hroot : ∀ given, request.root = some given → given.index < request.graph.size)
    (h : (request.progress text).Reaches position ⟨p, stage, unread⟩) :
    (∀ given, stage.given? = some given → given.index < p.graph.size) ∧
      (keeps fun _ _ => False).AllOpen p stage.opened ∧
      (stage.given?.isSome → stage.opened = []) := by
  have hstart : (request.progress text).stage = .prolog request.root := rfl
  have hopen := h.underway (I := keeps fun _ _ => False) hstart (fun _ _ h => h.elim)
    fun given hgiven tag type resolved hresolve => by
      have hgraph := request.pass.graph_resolveTag tag
      have hsame : (request.progress text).pass = request.pass := rfl
      rw [hsame] at hresolve
      rw [hresolve] at hgraph
      refine ⟨?_, fun _ h => h⟩
      rw [hgraph]
      exact hroot given hgiven
  obtain ⟨-, ⟨hprolog, hsame⟩ | hunderway⟩ := hopen
  · simp only at hprolog hsame
    subst hprolog hsame
    exact ⟨hroot, .none _, fun _ => rfl⟩
  · cases stage with
    | prolog root => exact hunderway.elim
    | content element outer => exact ⟨(fun _ h => by cases h), hunderway, fun h => by cases h⟩
    | epilog root => exact ⟨(fun _ h => by cases h), .none _, fun _ => rfl⟩

/-- The object of an element is none of those that are open around it. -/
theorem ReadInto.ne_of_open {g : Graph} {type : TypeInfo} {given : Option ObjectId}
    {object : ObjectId} {before : Component} {outer : List OpenElement}
    (h : ReadInto g type given object before)
    (hknown : ∀ element ∈ outer, element.object.index < g.size)
    (hgiven : given.isSome → outer = []) :
    ∀ element ∈ outer, element.object ≠ object := by
  intro element hmem hsame
  cases h with
  | given =>
    rw [hgiven rfl] at hmem
    cases hmem
  | new =>
    have hindex := hknown element hmem
    rw [hsame] at hindex
    exact Nat.lt_irrefl _ hindex

/-- The reading of an element leaves what is in the graph there. -/
theorem advances_evaluateElement {position : Nat → Option Position} {p q : Pass}
    {given : Option ObjectId} {element : Element} {object : ObjectId}
    (hgiven : ∀ root, given = some root → root.index < p.graph.size)
    (h : evaluateElement position p given element = (.ok object, q)) :
    (keeps fun _ _ => False).Advances p q := by
  have hyields := PassInvariant.evaluateElement position (I := keeps fun _ _ => False) given
    (fun _ _ h => h.elim) element fun root hroot type resolved hresolve => by
      have hgraph := p.graph_resolveTag element.tag
      rw [hresolve] at hgraph
      refine ⟨?_, fun _ h => h⟩
      rw [hgraph]
      exact hgiven root hroot
  rw [h] at hyields
  exact hyields.1

/-- What follows an element, and however the load ends, leaves its object alone. -/
theorem component?_load_behind {request : LoadRequest} {text : String} {p q : Pass} {stage : Stage}
    {element : Element} {rest : NodeFeed} {object : ObjectId} {type : TypeInfo}
    {before after : Component}
    (hroot : ∀ given, request.root = some given → given.index < request.graph.size)
    (hreach : (request.progress text).Reaches (Position.ofOffset? text.toList)
      ⟨p, stage, element.followedBy rest⟩)
    (hstarts : stage.Starts (Position.ofOffset? text.toList) element.place.start element.tag)
    (hread : evaluateElement (Position.ofOffset? text.toList) p stage.given? element =
      (.ok object, q))
    (hinto : ReadInto p.graph type stage.given? object before)
    (hafter : q.graph.component? object = some after) :
    (request.load text).2.component? object = some after := by
  obtain ⟨hgiven, hopen, halone⟩ := known_of_reaches hroot hreach
  -- the objects around the element are still there behind it, and none of them is its own
  have hopenBehind := hopen.advance (advances_evaluateElement hgiven hread)
  have hapart := hinto.ne_of_open (fun other hmem => (hopen.opened other hmem).1) halone
  have hwatched : (keeps fun id c => id = object ∧ c = after).Holds q := by
    rintro _ _ ⟨rfl, rfl⟩
    exact hafter
  have hall : (keeps fun id c => id = object ∧ c = after).AllOpen q stage.opened :=
    ⟨fun other hmem => ⟨(hopenBehind.opened other hmem).1,
      fun _ hsame => hapart other hmem hsame.1⟩,
      fun _ _ _ _ _ _ _ _ => trivial, fun _ _ => trivial⟩
  have hend := PassInvariant.assemble_behind rest (step_of_starts hstarts) hread
    hwatched hall trivial
  have hload : (request.load text).2 = (assemble (Position.ofOffset? text.toList) p stage
      (element.followedBy rest)).2.graph :=
    congrArg (·.2.graph) hreach.assemble_eq
  rw [hload]
  exact hend.holds object after ⟨rfl, rfl⟩

/-- **The last write counts, for every element of a load.** Wherever a run comes to an element that
is read into an object, and the reading succeeds, the object has in the end, whatever follows and
however the load ends, what the last writes of the element gave it: the value of the property `name`
is that of the last write that is no binding, or as it was before, and the binding is that of the
last write that is one, or as it was before. If the last value is an object, it is the very one that
an element inside was read into. -/
theorem load_lastWrites {request : LoadRequest} {text : String} {p q : Pass} {stage : Stage}
    {element : Element} {rest : NodeFeed} {object : ObjectId} {name : String}
    (hroot : ∀ given, request.root = some given → given.index < request.graph.size)
    (hreach : (request.progress text).Reaches (Position.ofOffset? text.toList)
      ⟨p, stage, element.followedBy rest⟩)
    (hstarts : stage.Starts (Position.ofOffset? text.toList) element.place.start element.tag)
    (hread : evaluateElement (Position.ofOffset? text.toList) p stage.given? element =
      (.ok object, q))
    (hname : name ≠ "Resources") :
    let writes := elementWrites (Position.ofOffset? text.toList) name p stage.given? element
    ∃ type before after, (p.resolveTag element.tag).1 = .ok type ∧
      ReadInto p.graph type stage.given? object before ∧
      (request.load text).2.component? object = some after ∧
      LastWrites type name writes before after ∧
      ∀ write id, lastValue? writes = some write → write.raw = .object id →
        valueIn? type name after = some (.object id) ∧ ∃ inner ∈ element.inner, ∃ between behind,
          evaluateElement (Position.ofOffset? text.toList) between none inner =
            (.ok id, behind) := by
  intro writes
  obtain ⟨hgiven, -, -⟩ := known_of_reaches hroot hreach
  obtain ⟨type, before, after, htype, hinto, hafter, hlast⟩ := lastWrites_element hname hgiven hread
  have hend := component?_load_behind hroot hreach hstarts hread hinto hafter
  refine ⟨type, before, after, htype, hinto, hend, hlast, fun write id hwrite hraw => ?_⟩
  have hmem : write ∈ writes := List.mem_of_mem_filter (List.mem_of_getLast? hwrite)
  exact ⟨hlast.object hwrite hraw, object_of_mem_elementWrites hraw hmem⟩

/-! ## A label written three times -/

/-- A label whose text is written as an attribute, then bound, then written again. -/
def rewrittenText : String :=
  "<Label Text='a'><Label.Text>\x7bBinding N\x7d</Label.Text><Label.Text>b</Label.Text></Label>"

/-- The tag of a property element for the text of a label. -/
def labelTextTag : StartTag :=
  ⟨⟨"Label.Text", "Label.Text", ""⟩, [], false⟩

/-- The element of `rewrittenText`. -/
def rewrittenLabel : Element :=
  .enclosing ⟨0, 0⟩ ⟨⟨"Label", "Label", ""⟩, [⟨⟨"Text", "Text", ""⟩, "a"⟩], false⟩ rfl
    (.element (.enclosing ⟨16, 0⟩ labelTextTag rfl (.text ⟨28, 0⟩ "\x7bBinding N\x7d" .none)
      ⟨39, 0⟩) <|
      .element (.enclosing ⟨52, 0⟩ labelTextTag rfl (.text ⟨64, 0⟩ "b" .none) ⟨65, 0⟩) .none)
    ⟨78, 0⟩

/-- A request without objects, over the framework's types. -/
def newObjectsRequest : LoadRequest :=
  ⟨.empty, Forms.catalog, none, none⟩

theorem rewrittenText_feed :
    NodeFeed.ofText rewrittenText.toList = rewrittenLabel.followedBy (.finished ⟨86, 0⟩) := by
  rw [rewrittenText, String.toList_ofList, NodeFeed.ofText_eq]
  decide +kernel

/-- Of the writes of `rewrittenLabel` the last value is `b`, and the last binding the only one. -/
theorem writes_rewrittenLabel :
    let writes :=
      elementWrites (Position.ofOffset? rewrittenText.toList) "Text" newObjectsRequest.pass none
      rewrittenLabel
    (lastValue? writes).map (·.raw) = some (.text "b") ∧
      (lastBinding? writes).map (·.raw) = some (.text "\x7bBinding N\x7d") := by
  decide +kernel

set_option maxRecDepth 4000 in
theorem parse_bindingN :
    Expression.BindingExpr.parse "\x7bBinding N\x7d" = .ok ⟨"N", none, none⟩ := rfl

/-- The label keeps the last value and, beside it, the binding. -/
theorem load_lastWrites_rewrittenText :
    ((newObjectsRequest.load rewrittenText).2.get? ⟨0⟩ "Text").bind Value.asText? = some "b" ∧
      ((newObjectsRequest.load rewrittenText).2.component? ⟨0⟩).bind (·.binding? "Text") =
        some ⟨"N", none, .default⟩ := by
  have hreach : (newObjectsRequest.progress rewrittenText).Reaches
      (Position.ofOffset? rewrittenText.toList)
      ⟨newObjectsRequest.pass, .prolog none, rewrittenLabel.followedBy (.finished ⟨86, 0⟩)⟩ := by
    rw [← rewrittenText_feed]
    exact .start
  have hsucceeds :
      (evaluateElement (Position.ofOffset? rewrittenText.toList) newObjectsRequest.pass none
      rewrittenLabel).1.toOption = some ⟨0⟩ := by decide +kernel
  rcases hread : evaluateElement (Position.ofOffset? rewrittenText.toList)
    newObjectsRequest.pass none rewrittenLabel with ⟨error | object, q⟩
  · rw [hread] at hsucceeds
    cases hsucceeds
  · rw [hread] at hsucceeds
    cases hsucceeds
    have hname : "Text" ≠ "Resources" := by decide
    obtain ⟨type, before, after, htype, -, hafter, hlast, -⟩ :=
      load_lastWrites (fun _ h => by cases h) hreach trivial hread hname
    obtain ⟨hvalue, hbinding⟩ := writes_rewrittenLabel
    obtain ⟨write, hwrite, hraw⟩ := Option.map_eq_some_iff.1 hvalue
    obtain ⟨bound, hbound, hexpression⟩ := Option.map_eq_some_iff.1 hbinding
    obtain ⟨kind, value, hkind, hcoerce, hin⟩ := hlast.written write hwrite
    obtain ⟨text, binding, htext, hparse, hattached⟩ := hlast.bound bound hbound
    -- the text of a label is a managed property of kind text
    have hlabel : type = Forms.label := by
      cases htype
      rfl
    subst hlabel
    cases hkind
    have hwritten := hcoerce fun _ => ""
    rw [hraw] at hwritten
    cases hwritten
    rw [hexpression] at htext
    cases htext
    rw [Pass.readBinding, parse_bindingN] at hparse
    cases hparse
    have hstored : after.store.bind (·.value? "Text") = some (.text "b") := hin
    rw [Graph.get?, hafter]
    exact ⟨by simp [ObjectState.get?, hstored, Value.asText?], hattached⟩

/-- A label whose text is written twice, the second time under a prefix that stands for no
namespace. -/
def emptyPrefixText : String :=
  "<Label xmlns:p='' Text='a' p:Text='b'/>"

/-- The tag of `emptyPrefixText`. -/
def emptyPrefixTag : StartTag :=
  ⟨⟨"Label", "Label", ""⟩,
    [⟨⟨"xmlns:p", "p", declarationNamespace⟩, ""⟩, ⟨⟨"Text", "Text", ""⟩, "a"⟩,
     ⟨⟨"p:Text", "Text", ""⟩, "b"⟩], true⟩

theorem emptyPrefixText_feed : NodeFeed.ofText emptyPrefixText.toList =
    .node ⟨0, 0⟩ (.element emptyPrefixTag) (.finished ⟨39, 0⟩) := by
  rw [emptyPrefixText, String.toList_ofList, NodeFeed.ofText_eq]
  decide +kernel

/-- Attributes without a prefix are not all that writes: it is not so that in a document of one tag
the last attribute written as `Text` gives the text. -/
theorem not_lastWrites_unprefixed :
    ¬ ∀ (text value : String) (place finish : Place) (tag : StartTag) (root : ObjectId)
      (graph : Graph), NodeFeed.ofText text.toList = .node place (.element tag) (.finished finish) →
      newObjectsRequest.load text = (.ok root, graph) →
      ((tag.attributes.filter (·.name.written == "Text")).getLast?).map (·.value) = some value →
      Pass.isExpression value = false →
      (graph.get? root "Text").bind Value.asText? = some value := by
  intro law
  have hload : (newObjectsRequest.load emptyPrefixText).1.toOption = some ⟨0⟩ ∧
      ((newObjectsRequest.load emptyPrefixText).2.get? ⟨0⟩ "Text").bind Value.asText? =
        some "b" := by
    rw [LoadRequest.load_of_feed _ emptyPrefixText_feed]
    decide +kernel
  rcases hresult : newObjectsRequest.load emptyPrefixText with ⟨error | root, graph⟩
  · rw [hresult] at hload
    cases hload.1
  · rw [hresult] at hload
    cases hload.1
    have hlast := law _ "a" _ _ _ _ _ emptyPrefixText_feed hresult (by decide) (by decide +kernel)
    rw [hload.2] at hlast
    exact absurd hlast (by decide)

end MarkupForms.Hydration
