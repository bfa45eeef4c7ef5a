import MarkupForms.Proofs.Hydration.Resources

/-!
# What containers contain

The children of an element are the elements directly inside it that are no property elements. Each
is read into a new object, and the object of the element takes them in document order: as items, or
each under the key that its own tag declares (`TakesIn`). Property elements, text and whatever
stands inside the children have no part in this, and what follows the element has none, either.

A key is declared on the object of its own tag, before anything inside the element is read, and no
one else takes it. A child that has none, or one of an element that is no container, ends the load.
-/

namespace MarkupForms

/-- The elements directly in contents that are no property elements, in document order. -/
def Markup.Contents.children : Markup.Contents → List Markup.Element
  | .none => []
  | .text _ _ rest | .blank _ rest => rest.children
  | .element child rest =>
    if child.tag.isPropertyElement then rest.children else child :: rest.children

namespace Hydration

open Markup

/-! ## Children and their objects -/

section Objects

/- The position of an offset in the document. -/
variable (position : Nat → Option Position)

/-- A child with the object that it is read into, unless it is a property element. -/
def childObjects (p : Pass) (child : Element) : List (Element × ObjectId) :=
  if child.tag.isPropertyElement then []
  else
    match evaluateElement position p none child with
    | (.ok object, _) => [(child, object)]
    | (.error _, _) => []

/-- The children in contents with the objects that they are read into, in document order. -/
def contentObjects (p : Pass) (parent : OpenElement) : Contents → List (Element × ObjectId)
  | .none => []
  | .text _ _ rest | .blank _ rest => contentObjects p parent rest
  | .element child rest =>
    childObjects position p child ++
      contentObjects (evaluateContents position p parent (.element child .none)).2 parent rest

/-- The children of an element with the objects that they are read into. -/
def elementObjects (p : Pass) (given : Option ObjectId) (element : Element) :
    List (Element × ObjectId) :=
  match openElement position p given element.tag element.place.start with
  | (.ok opened, q) => contentObjects position q opened element.contents
  | (.error _, _) => []

end Objects

/-- The object of a child under the key that the tag of the child declares. -/
def underKey? (child : Element × ObjectId) : Option (String × ObjectId) :=
  (declaredKey child.1.tag.attributes).map (·, child.2)

/-- What an object contains before and after it takes children in, by the kind of container that it
is. One that has no room takes no child. -/
inductive TakesIn (children : List (Element × ObjectId)) (before after : Component) :
    ContainerKind → Prop where
  | items (hitems : after.items = before.items.map (· ++ children.map (·.2)))
      (hroom : before.items = none → children = []) (hentries : after.entries = before.entries) :
      TakesIn children before after .items
  | keyed (hkeys : ∀ child ∈ children, (underKey? child).isSome)
      (hentries : after.entries = before.entries.map (·.insertAll (children.filterMap underKey?)))
      (hroom : before.entries = none → children = []) (hitems : after.items = before.items) :
      TakesIn children before after .keyed
  | nothing (hchildren : children = []) (hitems : after.items = before.items)
      (hentries : after.entries = before.entries) : TakesIn children before after .none

namespace TakesIn

variable {kind : ContainerKind} {first second : List (Element × ObjectId)}
  {before between after : Component}

/-- No child. -/
theorem same (kind : ContainerKind) (hitems : after.items = before.items)
    (hentries : after.entries = before.entries) :
    TakesIn [] before after kind := by
  cases kind with
  | none => exact .nothing rfl hitems hentries
  | items =>
    refine .items ?_ (fun _ => rfl) hentries
    rw [hitems, List.map_nil]
    cases before.items <;> simp
  | keyed =>
    refine .keyed (fun _ hmem => by cases hmem) ?_ (fun _ => rfl) hitems
    rw [hentries, List.filterMap_nil]
    cases before.entries <;> rfl

/-- Children and then more of them. -/
theorem append (h : TakesIn first before between kind) (h' : TakesIn second between after kind) :
    TakesIn (first ++ second) before after kind := by
  cases h with
  | nothing hchildren hitems hentries =>
    cases h' with
    | nothing hchildren' hitems' hentries' =>
      exact .nothing (by rw [hchildren, hchildren']; rfl) (hitems'.trans hitems)
        (hentries'.trans hentries)
  | items hitems hroom hentries =>
    cases h' with
    | items hitems' hroom' hentries' =>
      refine .items ?_ (fun hnone => ?_) (hentries'.trans hentries)
      · rw [hitems', hitems, Option.map_map]
        refine congrArg (Option.map · before.items) (funext fun items => ?_)
        simp
      · rw [hroom hnone, hroom' (by rw [hitems, hnone]; rfl)]
        rfl
  | keyed hkeys hentries hroom hitems =>
    cases h' with
    | keyed hkeys' hentries' hroom' hitems' =>
      refine .keyed (fun child hmem => ?_) ?_ (fun hnone => ?_) (hitems'.trans hitems)
      · exact (List.mem_append.1 hmem).elim (hkeys child) (hkeys' child)
      · rw [hentries', hentries, Option.map_map, List.filterMap_append]
        refine congrArg (Option.map · before.entries) (funext fun held => ?_)
        exact (OrderedMap.insertAll_append held _ _).symm
      · rw [hroom hnone, hroom' (by rw [hentries, hnone]; rfl)]
        rfl

end TakesIn

/-! ## Keys -/

/-- The keys of the objects that were there are as they were, and none is declared on an object yet
to be made. -/
structure KeysLeft (p q : Pass) : Prop where
  size : p.graph.size ≤ q.graph.size
  key {object : ObjectId} : object.index < p.graph.size → q.keys.key? object = p.keys.key? object
  unknown : q.NewUnkeyed

theorem LeftAlone.keysLeft {p q : Pass} (h : LeftAlone p q) : KeysLeft p q :=
  ⟨h.size, h.key, fun _ => h.unknown⟩

namespace KeysLeft

variable {p between q : Pass}

theorem refl (h : p.NewUnkeyed) : KeysLeft p p :=
  ⟨Nat.le_refl _, fun _ => rfl, h⟩

theorem trans (h : KeysLeft p between) (h' : KeysLeft between q) : KeysLeft p q where
  size := h.size.trans h'.size
  key hobject := (h'.key (Nat.lt_of_lt_of_le hobject h.size)).trans (h.key hobject)
  unknown := h'.unknown

/-- An assignment has nothing to do with keys. -/
theorem assign (h : KeysLeft p between) {target : ObjectId} {type : TypeInfo} {name : String}
    {raw : RawValue} (hassign : between.assign target type name raw = .ok q) : KeysLeft p q := by
  have hkeys := (Pass.assigned_of_assign hassign).keys
  have hsize := Pass.size_of_assign hassign
  refine ⟨hsize ▸ h.size, fun hobject => ?_, fun object hobject => ?_⟩
  · rw [hkeys]
    exact h.key hobject
  · rw [hkeys]
    exact h.unknown object (hsize ▸ hobject)

/-- The insertion of a new object takes no key but its own. -/
theorem insertChild (h : KeysLeft p between) {target child : ObjectId} {type : TypeInfo}
    (hnew : p.graph.size ≤ child.index)
    (hinsert : between.insertChild target type child = (.ok (), q)) :
    KeysLeft p q := by
  have hsize := between.size_insertChild target type child
  have hinserted := between.inserted_insertChild target type child
  rw [hinsert] at hinserted hsize
  cases hinserted with
  | item => exact ⟨hsize ▸ h.size, h.key, fun object hobject => h.unknown object (hsize ▸ hobject)⟩
  | entry =>
    refine ⟨hsize ▸ h.size, fun {object} hobject => ?_, fun object hobject => ?_⟩
    · have hother : child ≠ object := by
        rintro rfl
        exact Nat.not_lt.2 hnew hobject
      rw [KeyTable.key?_erase, if_neg hother]
      exact h.key hobject
    · rw [KeyTable.key?_erase]
      split
      · rfl
      · exact h.unknown object (hsize ▸ hobject)

end KeysLeft

section Attributes

variable {p q : Pass} {object : ObjectId} {type : TypeInfo}

theorem key?_of_applyAttribute {attr : Markup.Attribute}
    (h : p.applyAttribute object type attr = .ok q) (other : ObjectId) : q.keys.key? other =
      if object = other then keyAfter (p.keys.key? other) attr else p.keys.key? other := by
  unfold Pass.applyAttribute at h
  unfold keyAfter
  cases hrole : Pass.roleOf attr.name with
  | property name =>
    rw [hrole] at h
    rw [(Pass.assigned_of_assign h).keys, ite_self]
  | key =>
    rw [hrole] at h
    cases h
    exact KeyTable.key?_declare p.keys object other attr.value
  | ignored =>
    rw [hrole] at h
    cases h
    rw [ite_self]

/-- Attributes declare keys on the object of their tag. -/
theorem key?_of_applyAttributes {attrs : List Markup.Attribute}
    (h : p.applyAttributes object type attrs = (.ok (), q)) (other : ObjectId) : q.keys.key? other =
      if object = other then attrs.foldl keyAfter (p.keys.key? other) else p.keys.key? other := by
  induction attrs generalizing p with
  | nil =>
    cases h
    rw [List.foldl_nil, ite_self]
  | cons attr attrs ih =>
    rw [Pass.applyAttributes] at h
    cases hattr : p.applyAttribute object type attr with
    | error error => rw [hattr] at h; cases h
    | ok next =>
      rw [hattr] at h
      rw [ih h, key?_of_applyAttribute hattr, List.foldl_cons]
      split <;> rfl

end Attributes

section Elements

variable {position : Nat → Option Position} {p q : Pass} {given : Option ObjectId}
  {object : ObjectId}

/-- A tag declares the key of its object, and of no other. -/
theorem key?_of_openElement {tag : StartTag} {start : Nat} {opened : OpenElement}
    (h : openElement position p given tag start = (.ok opened, q)) (other : ObjectId) :
    q.keys.key? other =
      if opened.object = other then tag.attributes.foldl keyAfter (p.keys.key? other)
      else p.keys.key? other := by
  obtain ⟨type, resolved, taken, made, hresolve, htake, happly, rfl⟩ := openElement_eq_ok h
  have hkeys := p.keys_resolveTag tag
  rw [hresolve] at hkeys
  have htaken : taken.keys = resolved.keys := by
    cases given with
    | some object =>
      cases htake
      rfl
    | none =>
      rw [Pass.takeObject] at htake
      cases hmade : construct resolved.graph type with
      | error error => rw [hmade] at htake; cases htake
      | ok new => rw [hmade] at htake; cases htake; rfl
  rw [key?_of_applyAttributes happly, htaken, hkeys]

theorem ReadInto.eq_of_new {g : Graph} {type : TypeInfo} {before : Component}
    (h : ReadInto g type none object before) :
    object = ⟨g.size⟩ := by
  cases h
  rfl

/-- A tag leaves an object with what its type's constructor, or whoever gave it, has put into it. -/
theorem opened_of_openElement {tag : StartTag} {start : Nat} {opened : OpenElement}
    (hgiven : ∀ root, given = some root → root.index < p.graph.size)
    (h : openElement position p given tag start = (.ok opened, q)) :
    p.graph.size ≤ q.graph.size ∧ ∃ before written, (p.resolveTag tag).1 = .ok opened.type ∧
      ReadInto p.graph opened.type given opened.object before ∧
      q.graph.component? opened.object = some written ∧
      written.items = before.items ∧ written.entries = before.entries := by
  obtain ⟨type, resolved, taken, made, hresolve, htake, happly, rfl⟩ := openElement_eq_ok h
  have hgraph := p.graph_resolveTag tag
  rw [hresolve] at hgraph
  obtain ⟨before, hinto, hthere, -⟩ := readInto_of_takeObject (by rw [hgraph]; exact hgiven) htake
  have hsize := Pass.size_of_applyAttributes happly
  have hsame := contained?_of_applyAttributes happly made
  rw [Graph.contained?, Graph.contained?, hthere, Option.map_some] at hsame
  obtain ⟨written, hwritten, hcontained⟩ := Option.map_eq_some_iff.1 hsame
  obtain ⟨hitems, hentries⟩ := Prod.mk.inj hcontained
  rw [hgraph] at hinto
  refine ⟨?_, before, written, congrArg Prod.fst hresolve, hinto, hwritten, hitems, hentries⟩
  rw [hsize]
  cases hinto with
  | given => cases htake; rw [hgraph]
  | new => exact Nat.le_of_lt (Graph.index_lt_size hthere)

theorem newUnkeyed_of_openElement {tag : StartTag} {start : Nat} {opened : OpenElement}
    (hunkeyed : p.NewUnkeyed) (hgiven : ∀ root, given = some root → root.index < p.graph.size)
    (h : openElement position p given tag start = (.ok opened, q)) : q.NewUnkeyed := by
  obtain ⟨hsize, _, _, -, -, hthere, -⟩ := opened_of_openElement hgiven h
  intro other hnew
  have hother : opened.object ≠ other := by
    rintro rfl
    exact Nat.not_lt.2 hnew (Graph.index_lt_size hthere)
  rw [key?_of_openElement h, if_neg hother]
  exact hunkeyed other (hsize.trans hnew)

/-- A child is read into an object that is made for it. -/
theorem madeSince_evaluateElement {element : Element} (hunkeyed : p.NewUnkeyed)
    (h : evaluateElement position p none element = (.ok object, q)) : MadeSince p q object := by
  have hholds : (leavesAlone p).Holds p := .refl hunkeyed
  have hyields := PassInvariant.evaluateElement position none hholds element fun _ h => by cases h
  rw [h] at hyields
  obtain ⟨type, -, hmade⟩ := hyields.2 object rfl
  exact hmade rfl

variable {parent : OpenElement} {child : Element}

/-- Step: a child takes no key that was there before. -/
theorem keysLeft_child (hunkeyed : p.NewUnkeyed)
    (h : evaluateContents position p parent (.element child .none) = (.ok (), q)) :
    KeysLeft p q := by
  cases childRead_of_evaluateContents h with
  | assigned hproperty hnamed hvalue hassign =>
    exact (leftAlone_evaluateValue hunkeyed hvalue).keysLeft.assign hassign
  | inserted hobject hchild hinsert =>
    exact (leftAlone_evaluateElement hunkeyed hchild).keysLeft.insertChild
      (madeSince_evaluateElement hunkeyed hchild).1 hinsert

/-- Run: nor do the children of an element. -/
theorem keysLeft_contents {p : Pass} (hunkeyed : p.NewUnkeyed) :
    (contents : Contents) → evaluateContents position p parent contents = (.ok (), q) → KeysLeft p q
  | .none, h => by
    cases h
    exact .refl hunkeyed
  | .text _ _ rest, h => keysLeft_contents hunkeyed rest h
  | .blank _ rest, h => keysLeft_contents hunkeyed rest h
  | .element child rest, h => by
    rw [evaluateContents_cons, Located.andThen_eq_ok] at h
    obtain ⟨⟨⟩, between, hchild, hrest⟩ := h
    have hleft := keysLeft_child hunkeyed hchild
    exact hleft.trans (keysLeft_contents hleft.unknown rest hrest)

/-- **An element that has been read has the key that its own tag declares**, whatever stands inside
it. -/
theorem key?_of_evaluateElement {element : Element} (hunkeyed : p.NewUnkeyed)
    (h : evaluateElement position p none element = (.ok object, q)) :
    q.keys.key? object = declaredKey element.tag.attributes := by
  obtain ⟨opened, between, hopen, hcontents, rfl⟩ := evaluateElement_eq_ok h
  have hnone : ∀ root, (none : Option ObjectId) = some root → root.index < p.graph.size :=
    fun _ h => by cases h
  obtain ⟨-, _, _, -, hinto, hthere, -⟩ := opened_of_openElement hnone hopen
  have hleft := keysLeft_contents (newUnkeyed_of_openElement hunkeyed hnone hopen) element.contents
    hcontents
  have hfresh : p.keys.key? opened.object = none := by
    rw [hinto.eq_of_new]
    exact hunkeyed _ (Nat.le_refl _)
  rw [hleft.key (Graph.index_lt_size hthere), key?_of_openElement hopen, if_pos rfl, hfresh]
  rfl

/-! ## Taking children in -/

/-- One child is inserted. -/
theorem takesIn_insertChild {c : Component} (hread : p.graph.component? parent.object = some c)
    (hkey : p.keys.key? object = declaredKey child.tag.attributes)
    (hinsert : p.insertChild parent.object parent.type object = (.ok (), q)) :
    ∃ written, q.graph.component? parent.object = some written ∧
      TakesIn [(child, object)] c written parent.type.containerKind := by
  have hinserted := p.inserted_insertChild parent.object parent.type object
  rw [hinsert] at hinserted
  cases hinserted with
  | item there items hkind hthere hitems =>
    cases hread.symm.trans hthere
    refine ⟨_, Graph.component?_set_self hread _, ?_⟩
    rw [hkind]
    exact .items (by rw [hitems]; rfl) (fun hnone => by rw [hitems] at hnone; cases hnone) rfl
  | entry there entries key resources hkind hdeclared hthere hentries =>
    cases hread.symm.trans hthere
    refine ⟨_, Graph.component?_set_self hread _, ?_⟩
    have hentry : underKey? (child, object) = some (key, object) := by
      rw [underKey?, ← hkey, hdeclared]
      rfl
    rw [hkind]
    refine .keyed (fun entered hentered => ?_) ?_ (fun hnone => by
      rw [hentries] at hnone; cases hnone) rfl
    · rw [List.mem_singleton.1 hentered, hentry]
      rfl
    · rw [hentries, List.filterMap_cons_some hentry]
      rfl

/-- Step: a child is taken in, unless it is a property element. -/
theorem takesIn_child {c : Component} (hunkeyed : p.NewUnkeyed)
    (hread : p.graph.component? parent.object = some c)
    (h : evaluateContents position p parent (.element child .none) = (.ok (), q)) :
    ∃ written, q.graph.component? parent.object = some written ∧
      TakesIn (childObjects position p child) c written parent.type.containerKind := by
  unfold childObjects
  cases childRead_of_evaluateContents h with
  | assigned hproperty hnamed hvalue hassign =>
    have hsame := contained?_of_assign hassign parent.object
    rw [Graph.contained?, Graph.contained?, component?_evaluateValue hread hvalue,
      Option.map_some] at hsame
    obtain ⟨written, hwritten, hcontained⟩ := Option.map_eq_some_iff.1 hsame
    obtain ⟨hitems, hentries⟩ := Prod.mk.inj hcontained
    rw [if_pos hproperty]
    exact ⟨written, hwritten, .same _ hitems hentries⟩
  | inserted hobject hchild hinsert =>
    rw [if_neg (by simp [hobject]), hchild]
    exact takesIn_insertChild (component?_evaluateElement hread hchild)
      (key?_of_evaluateElement hunkeyed hchild) hinsert

/-- Run: the children of an element are taken in one after the other. -/
theorem takesIn_contents {p : Pass} {c : Component} (hunkeyed : p.NewUnkeyed)
    (hread : p.graph.component? parent.object = some c) :
    (contents : Contents) → evaluateContents position p parent contents = (.ok (), q) →
    ∃ written, q.graph.component? parent.object = some written ∧
      TakesIn (contentObjects position p parent contents) c written parent.type.containerKind
  | .none, h => by
    cases h
    exact ⟨c, hread, .same _ rfl rfl⟩
  | .text _ _ rest, h => takesIn_contents hunkeyed hread rest h
  | .blank _ rest, h => takesIn_contents hunkeyed hread rest h
  | .element child rest, h => by
    rw [evaluateContents_cons, Located.andThen_eq_ok] at h
    obtain ⟨⟨⟩, between, hchild, hrest⟩ := h
    obtain ⟨first, hfirst, hone⟩ := takesIn_child hunkeyed hread hchild
    obtain ⟨written, hwritten, hmore⟩ :=
      takesIn_contents (keysLeft_child hunkeyed hchild).unknown hfirst rest hrest
    rw [contentObjects, hchild]
    exact ⟨written, hwritten, hone.append hmore⟩

/-! ## Which objects these are -/

/-- Different objects that were made between two passes, each for one element that was read into
it. -/
structure MadeFor (position : Nat → Option Position) (p q : Pass) (elements : List Element)
    (children : List (Element × ObjectId)) : Prop where
  elements : children.map (·.1) = elements
  read : ∀ child ∈ children, ∃ before after, evaluateElement position before none child.1 =
    (.ok child.2, after)
  made : ∀ child ∈ children, MadeSince p q child.2
  distinct : (children.map (·.2)).Nodup

namespace MadeFor

variable {between : Pass} {first second : List Element} {early late : List (Element × ObjectId)}

theorem nothing (p q : Pass) : MadeFor position p q [] [] where
  elements := rfl
  read _ h := by cases h
  made _ h := by cases h
  distinct := List.nodup_nil

theorem append (h : MadeFor position p between first early)
    (h' : MadeFor position between q second late) (hbefore : p.graph.size ≤ between.graph.size)
    (hbehind : between.graph.size ≤ q.graph.size) :
    MadeFor position p q (first ++ second) (early ++ late) where
  elements := by rw [List.map_append, h.elements, h'.elements]
  read child hmem := (List.mem_append.1 hmem).elim (h.read child) (h'.read child)
  made child hmem := by
    rcases List.mem_append.1 hmem with hmem | hmem
    · obtain ⟨hnew, hthere⟩ := h.made child hmem
      exact ⟨hnew, Nat.lt_of_lt_of_le hthere hbehind⟩
    · obtain ⟨hnew, hthere⟩ := h'.made child hmem
      exact ⟨hbefore.trans hnew, hthere⟩
  distinct := by
    rw [List.map_append]
    refine h.distinct.append h'.distinct fun object hfirst hsecond => ?_
    obtain ⟨child, hchild, rfl⟩ := List.mem_map.1 hfirst
    obtain ⟨other, hother, hsame⟩ := List.mem_map.1 hsecond
    have hearlier := (h.made child hchild).2
    rw [← hsame] at hearlier
    exact Nat.not_lt.2 (h'.made other hother).1 hearlier

end MadeFor

/-- Step: a property element makes no child, another element makes one. -/
theorem madeFor_child (hunkeyed : p.NewUnkeyed)
    (h : evaluateContents position p parent (.element child .none) = (.ok (), q)) :
    MadeFor position p q (Contents.element child .none).children
      (childObjects position p child) := by
  unfold childObjects
  rw [Contents.children]
  cases childRead_of_evaluateContents h with
  | assigned hproperty =>
    rw [if_pos hproperty, if_pos hproperty]
    exact .nothing p q
  | @inserted made between hobject hchild hinsert =>
    obtain ⟨hnew, hthere⟩ := madeSince_evaluateElement hunkeyed hchild
    have hsize := between.size_insertChild parent.object parent.type made
    rw [hinsert] at hsize
    rw [if_neg (by simp [hobject]), if_neg (by simp [hobject]), hchild]
    refine ⟨rfl, fun entry hentry => ?_, fun entry hentry => ?_, List.nodup_singleton _⟩
    · rw [List.mem_singleton.1 hentry]
      exact ⟨p, between, hchild⟩
    · rw [List.mem_singleton.1 hentry]
      exact ⟨hnew, hsize.symm ▸ hthere⟩

/-- Run: the children in contents are all there is, in document order. -/
theorem madeFor_contents {p : Pass} (hunkeyed : p.NewUnkeyed) :
    (contents : Contents) → evaluateContents position p parent contents = (.ok (), q) →
    MadeFor position p q contents.children (contentObjects position p parent contents)
  | .none, h => .nothing p q
  | .text _ _ rest, h => madeFor_contents hunkeyed rest h
  | .blank _ rest, h => madeFor_contents hunkeyed rest h
  | .element child rest, h => by
    rw [evaluateContents_cons, Located.andThen_eq_ok] at h
    obtain ⟨⟨⟩, between, hchild, hrest⟩ := h
    have hleft := keysLeft_child hunkeyed hchild
    have hmore := madeFor_contents hleft.unknown rest hrest
    have hsplit : (Contents.element child rest).children =
        (Contents.element child .none).children ++ rest.children := by
      rw [Contents.children, Contents.children, Contents.children]
      split <;> rfl
    rw [contentObjects, hchild, hsplit]
    exact (madeFor_child hunkeyed hchild).append hmore hleft.size
      (keysLeft_contents hleft.unknown rest hrest).size

/-- **An element's object takes in its children**, and nothing else. -/
theorem takesIn_element {element : Element} (hunkeyed : p.NewUnkeyed)
    (hgiven : ∀ root, given = some root → root.index < p.graph.size)
    (h : evaluateElement position p given element = (.ok object, q)) :
    MadeFor position p q element.contents.children (elementObjects position p given element) ∧
      ∃ type before after, (p.resolveTag element.tag).1 = .ok type ∧
      ReadInto p.graph type given object before ∧
        q.graph.component? object = some after ∧
        TakesIn (elementObjects position p given element) before after type.containerKind := by
  obtain ⟨opened, between, hopen, hcontents, rfl⟩ := evaluateElement_eq_ok h
  obtain ⟨hsize, before, written, htype, hinto, hwritten, hitems, hentries⟩ :=
    opened_of_openElement hgiven hopen
  have hinside := newUnkeyed_of_openElement hunkeyed hgiven hopen
  obtain ⟨after, hafter, htakes⟩ := takesIn_contents hinside hwritten element.contents hcontents
  have hmade := madeFor_contents hinside element.contents hcontents
  rw [elementObjects, hopen]
  refine ⟨?_, opened.type, before, after, htype, hinto, hafter, ?_⟩
  · exact (MadeFor.nothing p between).append hmade hsize
      (keysLeft_contents hinside _ hcontents).size
  · exact (TakesIn.same _ hitems hentries).append htakes

end Elements

/-! ## Children that are refused -/

/-- A type whose objects do not take a child with this tag: it is no container, or one for keys and
the tag declares none. -/
def Refuses (type : TypeInfo) (tag : StartTag) : Prop :=
  type.containerKind = .none ∨ type.containerKind = .keyed ∧ declaredKey tag.attributes = none

/-- Why they do not. -/
def refusal (type : TypeInfo) (childTypeName : String) : InsertionFault :=
  if type.containerKind = .keyed then .noKey type.name childTypeName
  else .noContainer type.name childTypeName

section Refusals

variable {position : Nat → Option Position} {p q : Pass} {parent : OpenElement}
  {outer : List OpenElement} {child : Element} {object : ObjectId}

theorem insertChild_of_refuses (p : Pass) {tag : StartTag} (target : ObjectId) {type : TypeInfo}
    (hrefuses : Refuses type tag) (hkey : p.keys.key? object = declaredKey tag.attributes) :
    p.insertChild target type object =
      (.error (.structural (.insertion (refusal type (p.graph.typeName object))) none), p) := by
  unfold Pass.insertChild refusal
  rcases hrefuses with hkind | ⟨hkind, hnone⟩
  · simp [hkind]
  · simp [hkind, Pass.insertEntry, hkey, hnone]

/-- What follows a child that is refused is not read. -/
theorem assemble_of_refuses (hunkeyed : p.NewUnkeyed)
    (hproperty : parent.property = none) (hobject : child.tag.isPropertyElement = false)
    (hrefuses : Refuses parent.type child.tag) (rest : NodeFeed) :
    (∃ error, (assemble position p (.content parent outer) (child.followedBy rest)).1 =
      .error error) ∧ ∀ object q, evaluateElement position p none child = (.ok object, q) →
        (assemble position p (.content parent outer) (child.followedBy rest)).1 =
          .error ((StructuralFault.insertion (refusal parent.type (q.graph.typeName object))).at
            (position child.place.start)) := by
  cases hposition : position child.place.start with
  | none =>
    -- the child is not even begun
    have haborted : (assemble position p (.content parent outer) (child.followedBy rest)).1 =
        .error .aborted := by
      rw [Element.followedBy_eq, assemble_node, step, hproperty]
      simp only [stepElement, hposition]
      rfl
    exact ⟨⟨.aborted, haborted⟩, fun _ _ _ => haborted⟩
  | some here =>
  have hstarts : (Stage.content parent outer).Starts position child.place.start child.tag :=
    ⟨hobject, fun _ => by rw [hposition]; rfl, fun slot hslot => by
      rw [hproperty] at hslot; cases hslot⟩
  have hassemble := assembleAt_element position p (.content parent outer) none
    (parent :: outer) child rest (step_of_starts hstarts)
  rw [← outcome_assembleAt, hassemble]
  rcases hread : evaluateElement position p none child with ⟨error | object, q⟩
  · exact ⟨⟨error.2, rfl⟩, fun _ _ h => by cases h⟩
  · have hinsert := insertChild_of_refuses q parent.object hrefuses
      (key?_of_evaluateElement hunkeyed hread)
    have hdeliver : deliver position q object child.place.start (parent :: outer) =
        (.error ((StructuralFault.insertion (refusal parent.type (q.graph.typeName object))).at
          (some here)), q) := by
      simp [deliver, hproperty, insertObject, hinsert, hposition, StructuralFault.at,
        MarkupError.at]
    rw [Located.andThen_ok, hdeliver]
    exact ⟨⟨_, rfl⟩, fun _ _ h => by cases h; rfl⟩

/-- In what is accepted there is an end tag for every start tag. -/
theorem exists_child_of_assemble {place : Place} {tag : StartTag} {rest : NodeFeed}
    {root : ObjectId} (hproperty : parent.property = none)
    (hmatched : (NodeFeed.node place (.element tag) rest).Matched
      (Stage.content parent outer).openNames)
    (h : assemble position p (.content parent outer) (.node place (.element tag) rest) =
      (.ok root, q)) :
    ∃ (child : Element) (more : NodeFeed), NodeFeed.node place (.element tag) rest =
      child.followedBy more := by
  have hentered : (Stage.content parent outer).Entered := trivial
  have hcloses := closesAll_of_assemble hentered hmatched h
  rw [Stage.openNames_content, OpenElement.openNames_of_none hproperty] at hcloses
  obtain ⟨contents, behind, more, hfeed, -⟩ := hcloses
  cases contents with
  | none => cases hfeed
  | text => cases hfeed
  | blank => cases hfeed
  | element child inner => exact ⟨child, _, hfeed⟩

end Refusals

/-! ## Keys that are taken -/

/-- Every key that is taken was declared on the same object before, the latest of its keys and not
taken since; and nothing else is taken from this object. -/
def TakenOnce (log : List Happening) : Prop :=
  ∀ before container key object after, log = before ++ .entered container key object :: after →
    (∃ first between, before = first ++ .declared object key :: between ∧
      ∀ happening ∈ between, happening.keyed? ≠ some object) ∧
    ∀ other name, .entered other name object ∉ before ++ after

/-- A key that an object has was declared on it and not taken since. -/
theorem keyIn_eq_some {object : ObjectId} {key : String} {log : List Happening}
    (h : keyIn object log = some key) :
    ∃ first between, log = first ++ .declared object key :: between ∧
      ∀ happening ∈ between, happening.keyed? ≠ some object := by
  induction log using List.reverseRecOn with
  | nil => cases h
  | append_singleton log last ih =>
    rw [keyIn_concat] at h
    by_cases hkeyed : last.keyed? = some object
    · -- the last happening is about the key of this object, so it is the declaration
      cases last with
      | declared keyed other =>
        cases hkeyed
        rw [Happening.keyLeft, if_pos rfl] at h
        cases h
        exact ⟨log, [], rfl, fun _ hmem => by cases hmem⟩
      | entered container other keyed =>
        cases hkeyed
        rw [Happening.keyLeft, if_pos rfl] at h
        cases h
      | bound => cases hkeyed
      | shared => cases hkeyed
    · rw [Happening.keyLeft_of_other hkeyed] at h
      obtain ⟨first, between, rfl, hbetween⟩ := ih h
      refine ⟨first, between ++ [last], by simp, fun happening hmem => ?_⟩
      rcases List.mem_append.1 hmem with hold | hnew
      · exact hbetween happening hold
      · rw [List.mem_singleton.1 hnew]
        exact hkeyed

theorem KeysTaken.takenOnce {log : List Happening} (h : KeysTaken log) : TakenOnce log := by
  intro before container key object after hlog
  obtain ⟨hkey, hearlier⟩ := h before container key object after hlog
  refine ⟨keyIn_eq_some hkey, fun other name hmem => ?_⟩
  rcases List.mem_append.1 hmem with hbefore | hafter
  · exact hearlier other name hbefore
  · exact h.notMem_after hlog other hafter

/-! ## Loads -/

section Loads

variable {request : LoadRequest} {text : String}

/-- Where a run has come to, no key is declared on an object yet to be made. -/
theorem newUnkeyed_of_reaches {p : Pass} {stage : Stage} {unread : NodeFeed}
    {position : Nat → Option Position}
    (hroot : ∀ given, request.root = some given → given.index < request.graph.size)
    (h : (request.progress text).Reaches position ⟨p, stage, unread⟩) : p.NewUnkeyed := by
  obtain ⟨log, hrecords⟩ := h.records
  have htold := (agrees_of_records hroot hrecords).told
  intro object hnew
  rw [htold.keys]
  refine keyIn_eq_none fun happening hmem hsame => ?_
  exact Nat.not_lt.2 hnew (htold.known happening hmem object
    (Happening.mem_objects_of_keyed? hsame))

/-- A load that comes to a child that is refused fails. -/
theorem load_of_refuses {p : Pass} {parent : OpenElement} {outer : List OpenElement} {place : Place}
    {tag : StartTag} {rest : NodeFeed}
    (hroot : ∀ given, request.root = some given → given.index < request.graph.size)
    (hreach : (request.progress text).Reaches (Position.ofOffset? text.toList)
      ⟨p, .content parent outer, .node place (.element tag) rest⟩)
    (hproperty : parent.property = none) (hobject : tag.isPropertyElement = false)
    (hrefuses : Refuses parent.type tag) :
    (∃ error, (request.load text).1 = .error error) ∧
      ∀ child more object q, .node place (.element tag) rest = child.followedBy more →
        evaluateElement (Position.ofOffset? text.toList) p none child = (.ok object, q) →
        (request.load text).1 = .error ((StructuralFault.insertion
          (refusal parent.type (q.graph.typeName object))).at
            (Position.ofOffset? text.toList place.start)) := by
  have hunkeyed := newUnkeyed_of_reaches hroot hreach
  have hload : (request.load text).1 = (assemble (Position.ofOffset? text.toList) p
      (.content parent outer)
      (.node place (.element tag) rest)).1 := congrArg (·.1) hreach.assemble_eq
  -- the child is known to be complete before it is known to be refused
  have hrefused : ∀ child more, .node place (.element tag) rest = Element.followedBy more child →
      (∃ error, (request.load text).1 = .error error) ∧
        ∀ object q, evaluateElement (Position.ofOffset? text.toList) p none child =
          (.ok object, q) → (request.load text).1 = .error ((StructuralFault.insertion
            (refusal parent.type (q.graph.typeName object))).at
              (Position.ofOffset? text.toList place.start)) := by
    intro child more hfeed
    rw [hload, hfeed]
    rw [Element.followedBy_eq] at hfeed
    cases hfeed
    exact assemble_of_refuses hunkeyed hproperty hobject hrefuses more
  refine ⟨?_, fun child more object q hfeed hread => (hrefused child more hfeed).2 object q hread⟩
  rcases hassemble : assemble (Position.ofOffset? text.toList) p (.content parent outer)
    (.node place (.element tag) rest) with ⟨error | root, after⟩
  · exact ⟨error, by rw [hload, hassemble]⟩
  · have hmatched := hreach.matched (NodeFeed.matched_ofText text.toList)
    obtain ⟨child, more, hfeed⟩ := exists_child_of_assemble hproperty hmatched hassemble
    exact (hrefused child more hfeed).1

/-- **Containers contain the children of their elements.** A root object that is given has to exist.
Then:

* Wherever a run comes to an element that is read into an object, and the reading succeeds, each
  child of the element is read into an object of its own, made since; and in the end, whatever
  follows and however the load ends, the object of the element contains what it contained before and
  then these, in document order.
* At every point of a load, a key that has been taken was declared on the very object that was
  inserted under it, and not taken before.
* If a run comes to a child of an element whose type refuses it, the load fails: at the child's end
  with the reason, if the child can be read.
-/
theorem load_children
    (hroot : ∀ given, request.root = some given → given.index < request.graph.size) :
    (∀ p q stage element rest object,
      (request.progress text).Reaches (Position.ofOffset? text.toList) ⟨p, stage,
        element.followedBy rest⟩ →
      stage.Starts (Position.ofOffset? text.toList) element.place.start element.tag →
      evaluateElement (Position.ofOffset? text.toList) p stage.given? element = (.ok object, q) →
      let children := elementObjects (Position.ofOffset? text.toList) p stage.given? element
      MadeFor (Position.ofOffset? text.toList) p q element.contents.children children ∧
        ∃ type before after, (p.resolveTag element.tag).1 = .ok type ∧
          ReadInto p.graph type stage.given? object before ∧
          (request.load text).2.component? object = some after ∧
          TakesIn children before after type.containerKind) ∧
    (∀ p log, request.Moment text p log →
      (∀ object, p.keys.key? object = keyIn object log) ∧ TakenOnce log) ∧
    ∀ p parent outer place tag rest,
      (request.progress text).Reaches (Position.ofOffset? text.toList)
        ⟨p, .content parent outer, .node place (.element tag) rest⟩ →
      parent.property = none → tag.isPropertyElement = false → Refuses parent.type tag →
      (∃ error, (request.load text).1 = .error error) ∧
        ∀ child more object q, .node place (.element tag) rest = child.followedBy more →
          evaluateElement (Position.ofOffset? text.toList) p none child = (.ok object, q) →
          (request.load text).1 = .error ((StructuralFault.insertion
            (refusal parent.type (q.graph.typeName object))).at
              (Position.ofOffset? text.toList place.start)) := by
  refine ⟨?_, fun p log hmoment => ?_, fun p parent outer place tag rest hreach =>
    load_of_refuses hroot hreach⟩
  · intro p q stage element rest object hreach hstarts hread children
    obtain ⟨hgiven, -, -⟩ := known_of_reaches hroot hreach
    obtain ⟨hmade, type, before, after, htype, hinto, hafter, htakes⟩ :=
      takesIn_element (newUnkeyed_of_reaches hroot hreach) hgiven hread
    have hend := component?_load_behind hroot hreach hstarts hread hinto hafter
    exact ⟨hmade, type, before, after, htype, hinto, hend, htakes⟩
  · have htold := told_of_moment hroot hmoment
    exact ⟨htold.keys, htold.taken.takenOnce⟩

end Loads

/-! ## A dictionary of labels -/

/-- Three labels in a dictionary, the last under the key of the first, and a text between them. -/
def keyedLabelsText : String :=
  "<ResourceDictionary xmlns:x='http://schemas.microsoft.com/winfx/2006/xaml'>" ++
    "<Label x:Key='k'/>a<Label x:Key='j'/><Label x:Key='k'/></ResourceDictionary>"

/-- The element of `keyedLabelsText`. -/
def keyedLabels : Element :=
  .enclosing ⟨0, 0⟩
    ⟨⟨"ResourceDictionary", "ResourceDictionary", ""⟩,
      [⟨⟨"xmlns:x", "x", declarationNamespace⟩, metadataNamespace⟩], false⟩ rfl
    (.element (.selfClosed ⟨75, 0⟩ (keyedTag "Label" "k" true)
      (selfClosing_keyedTag "Label" "k" true)) <| .text ⟨93, 0⟩ "a" <|
        .element (.selfClosed ⟨94, 0⟩ (keyedTag "Label" "j" true)
          (selfClosing_keyedTag "Label" "j" true)) <|
          .element (.selfClosed ⟨112, 0⟩ (keyedTag "Label" "k" true)
            (selfClosing_keyedTag "Label" "k" true)) .none)
    ⟨130, 0⟩

theorem keyedLabelsText_feed :
    NodeFeed.ofText keyedLabelsText.toList = keyedLabels.followedBy (.finished ⟨151, 0⟩) := by
  unfold keyedLabelsText
  rw [String.toList_append, String.toList_ofList, String.toList_ofList, NodeFeed.ofText_eq]
  decide +kernel

theorem moment_keyedLabelsText :
    ∃ p, newObjectsRequest.Moment keyedLabelsText p
      (newObjectsRequest.chronicle keyedLabelsText) := by
  have hloaded : (newObjectsRequest.load keyedLabelsText).1.toOption = some ⟨0⟩ := by
    rw [LoadRequest.load_of_feed _ keyedLabelsText_feed]
    decide +kernel
  obtain ⟨graph, hload⟩ := exists_of_toOption hloaded
  obtain ⟨p, hmoment, -⟩ := LoadRequest.moment_of_load hload
  exact ⟨p, hmoment⟩

theorem evaluate_keyedLabels : ∃ q, evaluateElement (Position.ofOffset? keyedLabelsText.toList)
    newObjectsRequest.pass none keyedLabels = (.ok ⟨0⟩, q) := by
  refine exists_of_toOption ?_
  decide +kernel

theorem entries_keyedLabels :
    (elementObjects (Position.ofOffset? keyedLabelsText.toList) newObjectsRequest.pass none
      keyedLabels).filterMap underKey? = [("k", ⟨1⟩), ("j", ⟨2⟩), ("k", ⟨3⟩)] := by
  decide +kernel

/-- A label without a key in a dictionary. -/
def keylessText : String :=
  "<ResourceDictionary><Label/></ResourceDictionary>"

/-- The tag of the dictionary in `keylessText`. -/
def keylessTag : StartTag :=
  ⟨⟨"ResourceDictionary", "ResourceDictionary", ""⟩, [], false⟩

/-- The label in `keylessText`. -/
def keylessLabel : Element :=
  .selfClosed ⟨20, 0⟩ ⟨⟨"Label", "Label", ""⟩, [], true⟩ rfl

/-- What follows the label in `keylessText`. -/
def keylessRest : NodeFeed :=
  .node ⟨28, 0⟩ (.endElement "ResourceDictionary") (.finished ⟨49, 0⟩)

theorem keylessText_feed : NodeFeed.ofText keylessText.toList =
    .node ⟨0, 0⟩ (.element keylessTag) (keylessLabel.followedBy keylessRest) := by
  rw [keylessText, String.toList_ofList, NodeFeed.ofText_eq]
  decide +kernel

theorem opened_keylessTag :
    (openElement (Position.ofOffset? keylessText.toList) newObjectsRequest.pass none keylessTag
    0).1.toOption.map (·.object) = some ⟨0⟩ := by
  decide +kernel

/-- The load of `keylessText` comes to the label, inside the dictionary. -/
theorem reaches_keylessLabel :
    (newObjectsRequest.progress keylessText).Reaches (Position.ofOffset? keylessText.toList)
      ⟨(openElement (Position.ofOffset? keylessText.toList) newObjectsRequest.pass none
        keylessTag 0).2,
        .content ⟨keylessTag, ⟨0⟩, Forms.resourceDictionary, 0, none⟩ [],
          keylessLabel.followedBy keylessRest⟩ := by
  have hstart : (newObjectsRequest.progress keylessText).Reaches
      (Position.ofOffset? keylessText.toList)
      ⟨newObjectsRequest.pass, .prolog none,
        .node ⟨0, 0⟩ (.element keylessTag) (keylessLabel.followedBy keylessRest)⟩ := by
    rw [← keylessText_feed]
    exact .start
  obtain ⟨opened, hopened, hobject⟩ := Option.map_eq_some_iff.1 opened_keylessTag
  obtain ⟨p, hopen⟩ := exists_of_toOption hopened
  obtain ⟨type, resolved, taken, made, hresolve, -, -, rfl⟩ := openElement_eq_ok hopen
  cases hresolve
  cases hobject
  refine hstart.node ?_
  rw [step, startElement, hopen]
  rfl

theorem evaluate_keylessLabel :
    let p := (openElement (Position.ofOffset? keylessText.toList) newObjectsRequest.pass none
      keylessTag 0).2
    let read := evaluateElement (Position.ofOffset? keylessText.toList) p none keylessLabel
    read.1.toOption = some ⟨1⟩ ∧ read.2.graph.typeName ⟨1⟩ = "Label" := by
  decide +kernel

/-- The dictionary has the labels under their keys, the third one in the place of the first. The
label without a key ends its load. -/
theorem load_children_keyedLabels :
    (((newObjectsRequest.load keyedLabelsText).2.component? ⟨0⟩).bind (·.entries) =
      some ⟨[("k", ⟨3⟩), ("j", ⟨2⟩)]⟩ ∧ TakenOnce (newObjectsRequest.chronicle keyedLabelsText)) ∧
    (newObjectsRequest.load keylessText).1 =
      .error (.structural (.insertion (.noKey "ResourceDictionary" "Label")) (some ⟨1, 21⟩)) := by
  have hroot : ∀ given, newObjectsRequest.root = some given →
      given.index < newObjectsRequest.graph.size :=
    fun _ h => by cases h
  refine ⟨⟨?_, ?_⟩, ?_⟩
  · have hreach : (newObjectsRequest.progress keyedLabelsText).Reaches
        (Position.ofOffset? keyedLabelsText.toList)
        ⟨newObjectsRequest.pass, .prolog none, keyedLabels.followedBy (.finished ⟨151, 0⟩)⟩ := by
      rw [← keyedLabelsText_feed]
      exact .start
    obtain ⟨q, hread⟩ := evaluate_keyedLabels
    obtain ⟨-, type, before, after, htype, hinto, hafter, htakes⟩ :=
      (load_children hroot).1 _ _ _ _ _ _ hreach trivial hread
    have hdictionary : type = Forms.resourceDictionary := by
      cases htype
      rfl
    subst hdictionary
    cases hinto with
    | new hstate =>
      cases hstate
      cases htakes with
      | keyed hkeys hentries =>
        rw [hafter, Option.bind_some, hentries]
        exact congrArg
          (fun entries => some ((OrderedMap.empty : OrderedMap ObjectId).insertAll entries))
          entries_keyedLabels
  · obtain ⟨p, hmoment⟩ := moment_keyedLabelsText
    exact ((load_children hroot).2.1 p _ hmoment).2
  · obtain ⟨hobject, hnamed⟩ := evaluate_keylessLabel
    obtain ⟨q, hread⟩ := exists_of_toOption hobject
    rw [hread] at hnamed
    have hrefused :=
      (load_children hroot).2.2 _ _ _ _ _ _ reaches_keylessLabel rfl rfl (Or.inr ⟨rfl, rfl⟩)
    have herror := hrefused.2 keylessLabel keylessRest _ _ rfl hread
    rw [show q.graph.typeName ⟨1⟩ = "Label" from hnamed] at herror
    exact herror

end Hydration

end MarkupForms
