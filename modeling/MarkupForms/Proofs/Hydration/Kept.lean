import MarkupForms.Hydration.Assembly
import MarkupForms.Proofs.Markup.Tree
import MarkupForms.Proofs.OrderedMap

/-!
# What an element keeps

Not every element of a document can be reached in the objects that come of it. Read over a framework
element, its tag and contents say what its object keeps in the end: items in order, the last value
of each managed property, the last entry under each key. Elements that are values of plain
properties or of `Resources`, and those whose place another value takes later, are not among them.
The id, too, is the last of those that are given.

Nothing here is carried out: `Slots` follows the attributes and contents of one element from left to
right.
-/

namespace MarkupForms.Hydration

open Markup

/-- The framework type that a tag names. -/
def frameworkType? (tag : StartTag) : Option TypeInfo :=
  Forms.types.find? (·.name == Resolver.baseName tag.name.localName)

/-- What a document gives for a property: a text, or an element to be read. -/
inductive Given where
  | text (content : String)
  | element (element : Element)

/-- What an element keeps so far. A managed property with a value that is no object keeps its place
and no element. -/
structure Slots where
  items : List Element
  values : OrderedMap (Option Element)
  entries : OrderedMap Element
  id : Option String

/-- The element that is given, if it is one. -/
def Given.element? : Given → Option Element
  | .text _ => none
  | .element child => some child

/-- The text that is given, if it is one. -/
def Given.text? : Given → Option String
  | .text content => some content
  | .element _ => none

namespace Slots

/-- Nothing is kept yet. -/
def empty : Slots := ⟨[], .empty, .empty, none⟩

/-- After a value is stored. The only plain property that matters is the id. -/
def store (slots : Slots) (type : TypeInfo) (name : String) (given : Given) : Slots :=
  if (type.findManaged name).isSome then
    { slots with values := slots.values.insert name given.element? }
  else if name = "Id" then { slots with id := given.text? }
  else slots

/-- After an assignment. `Resources` and bindings store no value. -/
def assign (slots : Slots) (type : TypeInfo) (name : String) (given : Given) : Slots :=
  if name = "Resources" then slots
  else
    match given with
    | .text content =>
      if Pass.isExpression content then slots else slots.store type name given
    | .element _ => slots.store type name given

/-- After an attribute. -/
def applyAttribute (type : TypeInfo) (slots : Slots) (attr : Markup.Attribute) : Slots :=
  match Pass.roleOf attr.name with
  | .property name => slots.assign type name (.text attr.value)
  | .key | .ignored => slots

end Slots

/-- The key of an object after an attribute: a later key takes the place of an earlier one. -/
def keyAfter (key : Option String) (attr : Markup.Attribute) : Option String :=
  match Pass.roleOf attr.name with
  | .key => some attr.value
  | .property _ | .ignored => key

/-- The key that attributes declare. -/
def declaredKey (attrs : List Markup.Attribute) : Option String :=
  attrs.foldl keyAfter none

/-- After a child is inserted. -/
def Slots.insert (slots : Slots) (type : TypeInfo) (child : Element) : Slots :=
  match type.containerKind, declaredKey child.tag.attributes with
  | .items, _ => { slots with items := slots.items ++ [child] }
  | .keyed, some key => { slots with entries := slots.entries.insert key child }
  | .keyed, none | .none, _ => slots

/-- The value between the tags of a property element: its first text or element. -/
def givenIn? : Contents → Option Given
  | .none => none
  | .blank _ rest => givenIn? rest
  | .text _ content _ => some (.text (Text.trimmed content))
  | .element child _ => some (.element child)

/-- After the contents of an element. -/
def Slots.fill (slots : Slots) (parent : StartTag) (type : TypeInfo) : Contents → Slots
  | .none => slots
  | .text _ _ rest | .blank _ rest => slots.fill parent type rest
  | .element child rest =>
    if child.tag.isPropertyElement then
      match namedProperty? parent child.tag, givenIn? child.contents with
      | some property, some given => (slots.assign type property given).fill parent type rest
      | _, _ => slots.fill parent type rest
    else (slots.insert type child).fill parent type rest

namespace Slots

/-- The elements that are kept, in the order in which their objects are nested. -/
def elements (slots : Slots) : List Element :=
  slots.items ++ slots.values.values.filterMap (fun kept => kept) ++ slots.entries.values

end Slots

/-- What an element keeps in the end. -/
def slotsOf (element : Element) : Slots :=
  match frameworkType? element.tag with
  | none => .empty
  | some type =>
    let opened := element.tag.attributes.foldl (Slots.applyAttribute type) .empty
    opened.fill element.tag type element.contents

theorem slotsOf_eq {element : Element} {type : TypeInfo}
    (h : frameworkType? element.tag = some type) :
    slotsOf element =
      (element.tag.attributes.foldl (Slots.applyAttribute type) .empty).fill element.tag type
        element.contents := by
  rw [slotsOf, h]

/-- The elements that an element keeps. -/
def keptIn (element : Element) : List Element :=
  (slotsOf element).elements

/-- The id that the object of an element has in the end. -/
def finalId? (element : Element) : Option String :=
  (slotsOf element).id

/-! ## Kept elements stand inside -/

/-- Every element among the slots has the property. -/
structure Slots.Within (P : Element → Prop) (slots : Slots) : Prop where
  items : ∀ element ∈ slots.items, P element
  values {name : String} {element : Element} : (name, some element) ∈ slots.values.toList →
    P element
  entries {name : String} {element : Element} : (name, element) ∈ slots.entries.toList → P element

namespace Slots.Within

variable {P : Element → Prop} {slots : Slots} {type : TypeInfo}

theorem empty : Slots.Within P .empty where
  items _ h := by cases h
  values h := by cases h
  entries h := by cases h

theorem assign (h : slots.Within P) (name : String) {given : Given}
    (hgiven : ∀ element, given.element? = some element → P element) :
    (slots.assign type name given).Within P := by
  have hstore : (slots.store type name given).Within P := by
    unfold Slots.store
    split
    · refine ⟨h.items, fun hmem => ?_, h.entries⟩
      rcases OrderedMap.mem_insert hmem with hnew | hold
      · exact hgiven _ (congrArg Prod.snd hnew).symm
      · exact h.values hold
    · split
      · exact ⟨h.items, h.values, h.entries⟩
      · exact h
  unfold Slots.assign
  split
  · exact h
  · split
    · split
      · exact h
      · exact hstore
    · exact hstore

theorem applyAttributes (h : slots.Within P) (attrs : List Markup.Attribute) :
    (attrs.foldl (Slots.applyAttribute type) slots).Within P := by
  induction attrs generalizing slots with
  | nil => exact h
  | cons attr attrs ih =>
    refine ih ?_
    unfold Slots.applyAttribute
    split
    · exact h.assign _ fun _ htext => by cases htext
    · exact h
    · exact h

theorem insert (h : slots.Within P) {child : Element} (hchild : P child) :
    (slots.insert type child).Within P := by
  unfold Slots.insert
  split
  · refine ⟨fun element hmem => ?_, h.values, h.entries⟩
    rcases List.mem_append.1 hmem with hold | hnew
    · exact h.items element hold
    · rw [List.mem_singleton] at hnew
      exact hnew ▸ hchild
  · refine ⟨h.items, h.values, fun hmem => ?_⟩
    rcases OrderedMap.mem_insert hmem with hnew | hold
    · cases hnew; exact hchild
    · exact h.entries hold
  · exact h
  · exact h

/-- The element that a property element gives stands between its tags. -/
theorem mem_inner_of_givenIn? {given : Given} {element : Element}
    (h : given.element? = some element) :
    (contents : Contents) → givenIn? contents = some given → element ∈ contents.inner
  | .none, hgiven => by cases hgiven
  | .blank _ rest, hgiven => mem_inner_of_givenIn? h rest hgiven
  | .text _ _ _, hgiven => by cases hgiven; cases h
  | .element _ _, hgiven => by cases hgiven; cases h; exact List.mem_cons_self

theorem fill (parent : StartTag) :
    (contents : Contents) → {slots : Slots} → slots.Within P →
    (∀ element ∈ contents.inner, P element) → (slots.fill parent type contents).Within P
  | .none, _, h, _ => h
  | .text _ _ rest, _, h, hP => fill parent rest h hP
  | .blank _ rest, _, h, hP => fill parent rest h hP
  | .element child rest, _, h, hP => by
    obtain ⟨hchild, hinner⟩ := List.forall_mem_cons.1 hP
    have hinside : ∀ element ∈ child.inner, P element :=
      fun element hmem => hinner element (List.mem_append_left _ hmem)
    have hrest : ∀ element ∈ rest.inner, P element :=
      fun element hmem => hinner element (List.mem_append_right _ hmem)
    rw [Slots.fill]
    split
    · split
      -- the value of a property element stands one level further down
      · next property given _ hgiven =>
        refine fill parent rest (h.assign property fun element helement => ?_) hrest
        rw [← Element.inner_contents] at hinside
        exact hinside element (mem_inner_of_givenIn? helement child.contents hgiven)
      · exact fill parent rest h hrest
    · exact fill parent rest (h.insert hchild) hrest

end Slots.Within

theorem slotsOf_within (element : Element) : (slotsOf element).Within (· ∈ element.inner) := by
  cases htype : frameworkType? element.tag with
  | none =>
    rw [slotsOf, htype]
    exact .empty
  | some type =>
    rw [slotsOf_eq htype]
    refine Slots.Within.fill _ _ (Slots.Within.empty.applyAttributes _) fun inner hinner => ?_
    rwa [Element.inner_contents] at hinner

/-- What an element keeps stands inside it. -/
theorem mem_inner_of_mem_keptIn {element kept : Element} (h : kept ∈ keptIn element) :
    kept ∈ element.inner := by
  have hwithin := slotsOf_within element
  rcases List.mem_append.1 h with h | hentry
  · rcases List.mem_append.1 h with hitem | hvalue
    · exact hwithin.items kept hitem
    · obtain ⟨value, hmem, rfl⟩ := List.mem_filterMap.1 hvalue
      obtain ⟨⟨name, value⟩, hpair, rfl⟩ := List.mem_map.1 hmem
      exact hwithin.values hpair
  · obtain ⟨⟨key, entry⟩, hpair, rfl⟩ := List.mem_map.1 hentry
    exact hwithin.entries hpair

end MarkupForms.Hydration
