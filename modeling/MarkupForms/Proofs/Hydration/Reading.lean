import MarkupForms.Proofs.Forms.Framework
import MarkupForms.Proofs.Hydration.Frame
import MarkupForms.Proofs.Hydration.Kept
import MarkupForms.Proofs.Objects.Search

/-!
# The objects of a document mirror what its elements keep

A new element of framework types is read into a new object, and what is nested in that object are
the objects of the elements that it keeps, in order, each of them again of that kind. The relation
between objects and elements is built on the way: while an element is read, it relates what was read
inside it so far, and the object of the element shows its `Slots` so far.
-/

namespace MarkupForms.Hydration

open Markup

/-- Which object was read from which element. -/
abbrev ReadFrom := ObjectId → Element → Prop

/-! ## One object -/

/-- The managed values of an object, in store order. -/
def storedValues (c : Component) : List (String × Value) :=
  (c.store.map (·.values.toList)).getD []

/-- The keyed entries of an object. -/
def keyedEntries (c : Component) : List (String × ObjectId) :=
  (c.entries.map (·.toList)).getD []

/-- The state of an object shows what was kept: an object in each place of an element, and the
id. -/
structure Shows (R : ReadFrom) (c : Component) (slots : Slots) : Prop where
  items : List.Forall₂ R (c.items.getD []) slots.items
  values : List.Forall₂ (OrderedMap.SameEntry fun value kept => Option.Rel R value.asObject? kept)
    (storedValues c) slots.values.toList
  entries : List.Forall₂ (OrderedMap.SameEntry R) (keyedEntries c) slots.entries.toList
  id : (c.plain? "Id").bind Value.asText? = slots.id
  idPlain : "Id" ∉ (storedValues c).map Prod.fst

/-- What an assignment receives and what the document gives. -/
inductive Delivers (R : ReadFrom) : RawValue → Given → Prop where
  | text (content : String) : Delivers R (.text content) (.text content)
  | object {object : ObjectId} {element : Element} : R object element →
      Delivers R (.object object) (.element element)

section Showing

variable {R S : ReadFrom} {c : Component} {slots : Slots}

theorem rel_option_imp {α β : Type} {R S : α → β → Prop} (himp : ∀ a b, R a b → S a b)
    {a : Option α} {b : Option β} (h : Option.Rel R a b) : Option.Rel S a b := by
  cases h with
  | some hab => exact .some (himp _ _ hab)
  | none => exact .none

theorem Shows.imp (h : Shows R c slots) (himp : ∀ o e, R o e → S o e) : Shows S c slots where
  items := h.items.imp himp
  values := h.values.imp fun _ _ hentry => ⟨hentry.1, rel_option_imp himp hentry.2⟩
  entries := h.entries.imp fun _ _ hentry => ⟨hentry.1, himp _ _ hentry.2⟩
  id := h.id
  idPlain := h.idPlain

theorem Delivers.imp {raw : RawValue} {given : Given} (h : Delivers R raw given)
    (himp : ∀ o e, R o e → S o e) : Delivers S raw given := by
  cases h with
  | text content => exact .text content
  | object hrel => exact .object (himp _ _ hrel)

theorem shows_blank {state : ObjectState} (h : state.Blank) (type : TypeInfo) :
    Shows R { state with type := type } .empty := by
  have hstored : storedValues { state with type := type } = [] := by
    unfold storedValues
    cases hstore : state.store with
    | none => rfl
    | some store => rw [h.store store hstore]; rfl
  refine ⟨?_, ?_, ?_, ?_, ?_⟩
  · show List.Forall₂ R (state.items.getD []) []
    cases hitems : state.items with
    | none => exact .nil
    | some items => rw [h.items items hitems]; exact .nil
  · rw [hstored]; exact .nil
  · show List.Forall₂ _ ((state.entries.map (·.toList)).getD []) []
    cases hentries : state.entries with
    | none => exact .nil
    | some entries => rw [h.entries entries hentries]; exact .nil
  · show (state.plain? "Id").bind Value.asText? = none
    rw [h.id]
    rfl
  · rw [hstored]; exact List.not_mem_nil

/-- What is nested in an object are the objects of the elements that are kept. -/
theorem Shows.nested (h : Shows R c slots) : List.Forall₂ R c.nested slots.elements := by
  have hvalues : c.objectValues = (storedValues c).filterMap fun entry => entry.2.asObject? := by
    unfold ObjectState.objectValues storedValues
    cases c.store with
    | none => rfl
    | some store => exact List.filterMap_map ..
  have hentries : (c.entries.map (·.values)).getD [] = (keyedEntries c).map Prod.snd := by
    unfold keyedEntries
    cases c.entries <;> rfl
  rw [ObjectState.nested, ObjectState.children, hvalues, hentries, Slots.elements]
  refine List.rel_append (List.rel_append h.items ?_) ?_
  · rw [OrderedMap.values, List.filterMap_map]
    exact List.rel_filterMap (fun {_ _} hentry => hentry.2) h.values
  · exact List.rel_map (fun {_ _} hentry => hentry.2) h.entries

theorem Shows.get?_id (h : Shows R c slots) : (c.get? "Id").bind Value.asText? = slots.id := by
  have hnone : c.store.bind (·.value? "Id") = none := by
    have hplain := h.idPlain
    unfold storedValues at hplain
    cases hstore : c.store with
    | none => rfl
    | some store =>
      rw [hstore] at hplain
      exact OrderedMap.lookupEntry_eq_none hplain
  rw [ObjectState.get?, hnone]
  exact h.id

end Showing

/-! ## One write -/

theorem asObject?_of_readValue? {kind : ValueKind} {content : String} {value : Value}
    (h : readValue? kind content = some value) : value.asObject? = none := by
  cases kind with
  | text | object => cases h; rfl
  | int | float | bool | enum info =>
    obtain ⟨_, _, rfl⟩ := Option.map_eq_some_iff.1 h
    rfl
  | list => cases h

/-- A coerced value is an object exactly if an object was given. -/
theorem asObject?_of_coerce {R : ReadFrom} {typeOf : ObjectId → String} {kind : ValueKind}
    {name : String} {raw : RawValue} {given : Given} {value : Value} (hgiven : Delivers R raw given)
    (h : coerce typeOf kind name raw = .ok value) :
    Option.Rel R value.asObject? given.element? := by
  cases hgiven with
  | text content =>
    rw [coerce] at h
    cases hread : readValue? kind content with
    | none => simp only [hread] at h; cases h
    | some value =>
      simp only [hread] at h
      cases h
      rw [asObject?_of_readValue? hread]
      exact .none
  | @object object element hrel =>
    cases kind with
    | object => cases h; exact .some hrel
    | text | int | float | bool | enum info | list => cases h

/-- A coerced text is the text that was given. -/
theorem asText?_of_coerce {R : ReadFrom} {typeOf : ObjectId → String} {name : String}
    {raw : RawValue} {given : Given} {value : Value} (hgiven : Delivers R raw given)
    (h : coerce typeOf .text name raw = .ok value) : value.asText? = given.text? := by
  cases hgiven with
  | text content => cases h; rfl
  | object _ => cases h

section Writes

variable {R : ReadFrom} {c : Component} {slots : Slots}

theorem Slots.assign_of_stored {type : TypeInfo} {name : String} {raw : RawValue} {given : Given}
    (hgiven : Delivers R raw given) (hname : name ≠ "Resources")
    (htext : ∀ content, raw = .text content → Pass.isExpression content = false) :
    slots.assign type name given = slots.store type name given := by
  unfold Slots.assign
  rw [if_neg hname]
  cases hgiven with
  | text content =>
    dsimp only
    rw [htext content rfl]
    exact if_neg Bool.false_ne_true
  | object _ => rfl

theorem Shows.setValue (h : Shows R c slots) {store : PropertyStore} (hstore : c.store = some store)
    {type : TypeInfo} {property : ManagedProperty} (hid : type.findManaged "Id" = none)
    (hfind : type.findManaged property.name = some property) {value : Value} {given : Given}
    (hvalue : Option.Rel R value.asObject? given.element?) :
    Shows R { c with store := some (store.setValue property value) }
      (slots.store type property.name given) := by
  have hvalues := h.values
  have hplain := h.idPlain
  rw [storedValues, hstore] at hvalues hplain
  unfold Slots.store
  rw [if_pos (Option.isSome_of_mem hfind)]
  refine ⟨h.items, OrderedMap.rel_insertEntry hvalues _ hvalue, h.entries, h.id, fun hmem => ?_⟩
  -- no managed property is called `Id`, so the id is never covered by a managed value
  obtain ⟨entry, hentry, hname⟩ := List.mem_map.1 hmem
  rcases OrderedMap.mem_insert hentry with rfl | hold
  · rw [show property.name = "Id" from hname, hid] at hfind
    cases hfind
  · exact hplain (List.mem_map.2 ⟨entry, hold, hname⟩)

theorem Shows.setBinding (h : Shows R c slots) {store : PropertyStore}
    (hstore : c.store = some store) (property : ManagedProperty) (binding : Binding) :
    Shows R { c with store := some (store.setBinding property binding) } slots := by
  have hvalues := h.values
  have hplain := h.idPlain
  rw [storedValues, hstore] at hvalues hplain
  exact ⟨h.items, hvalues, h.entries, h.id, hplain⟩

theorem Shows.setPlain (h : Shows R c slots) {type : TypeInfo} {name : String}
    (hfind : type.findManaged name = none) {value : Value} {given : Given}
    (hvalue : name = "Id" → value.asText? = given.text?) :
    Shows R { c with plainValues := c.plainValues.insert name value }
      (slots.store type name given) := by
  have hread : (c.plainValues.insert name value).get? "Id" =
      if name = "Id" then some value else c.plainValues.get? "Id" := OrderedMap.get?_insert ..
  unfold Slots.store
  rw [hfind, if_neg (by simp)]
  split
  · next hname =>
    refine ⟨h.items, h.values, h.entries, ?_, h.idPlain⟩
    rw [ObjectState.plain?, hread, if_pos hname]
    exact hvalue hname
  · next hname =>
    refine ⟨h.items, h.values, h.entries, ?_, h.idPlain⟩
    rw [ObjectState.plain?, hread, if_neg hname]
    exact h.id

/-- **An assignment is shown**: after it the object shows what the document gives. -/
theorem Shows.assigned {p next : Pass} {target : ObjectId} {type : TypeInfo} {name : String}
    {raw : RawValue} {given : Given} (h : Shows R c slots)
    (hread : p.graph.component? target = some c) (htype : type ∈ Forms.types)
    (hgiven : Delivers R raw given) (hassigned : p.Assigned target type name raw next) :
    ∃ written, next.graph = p.graph.set target written ∧ written.type = c.type ∧
      Shows R written (slots.assign type name given) := by
  have hregular := Forms.regular_of_mem htype
  cases hassigned with
  | shared container entries hname _ =>
    -- the object is not written to: that is writing back what is there
    refine ⟨c, (Graph.set_self hread).symm, rfl, ?_⟩
    unfold Slots.assign
    rw [if_pos hname]
    exact h
  | dangling _ _ _ _ hnone =>
    rw [hread] at hnone
    cases hnone
  | bound d store property binding content hname hraw htext _ _ hthere hstore =>
    rw [hread] at hthere
    cases hthere
    subst hraw
    cases hgiven
    refine ⟨_, rfl, rfl, ?_⟩
    unfold Slots.assign
    rw [if_neg hname]
    simp only [htext, if_true]
    exact h.setBinding hstore property binding
  | managed d store property value hname htext hfind hvalue hthere hstore =>
    rw [hread] at hthere
    cases hthere
    have hproperty := TypeInfo.name_of_findManaged hfind
    subst hproperty
    refine ⟨_, rfl, rfl, ?_⟩
    rw [Slots.assign_of_stored hgiven hname htext]
    exact h.setValue hstore hregular.idNotManaged hfind (asObject?_of_coerce hgiven hvalue)
  | plain d state kind value hname htext hfind hplain hvalue hthere hwrite =>
    rw [hread] at hthere
    cases hthere
    rw [Pass.setPlain_eq_ok hwrite]
    refine ⟨_, rfl, rfl, ?_⟩
    rw [Slots.assign_of_stored hgiven hname htext]
    refine h.setPlain hfind fun hidName => ?_
    subst hidName
    rw [hregular.idIsText hplain] at hvalue
    exact asText?_of_coerce hgiven hvalue

end Writes

/-! ## What was read -/

/-- The object was read from the element: it is of the type that the element names, it shows what
the element keeps, and what is nested in it was made later. -/
def MadeFrom (g : Graph) (R : ReadFrom) (object : ObjectId) (element : Element) : Prop :=
  ∃ c, g.component? object = some c ∧ frameworkType? element.tag = some c.type ∧
    Shows R c (slotsOf element) ∧ ∀ child ∈ c.nested, object.index < child.index

/-- All that `R` relates was read so, from `start` on. -/
def Made (g : Graph) (start : Nat) (R : ReadFrom) : Prop :=
  ∀ object element, R object element → start ≤ object.index ∧ MadeFrom g R object element

theorem MadeFrom.imp {g : Graph} {R S : ReadFrom} {object : ObjectId} {element : Element}
    (h : MadeFrom g R object element) (himp : ∀ o e, R o e → S o e) :
    MadeFrom g S object element := by
  obtain ⟨c, hread, htype, hshows, hlater⟩ := h
  exact ⟨c, hread, htype, hshows.imp himp, hlater⟩

/-- Nothing was read. -/
def nothingRead : ReadFrom := fun _ _ => False

/-- What either relation relates. -/
def ReadFrom.or (R S : ReadFrom) : ReadFrom := fun object element => R object element ∨
    S object element

namespace Made

variable {g : Graph} {start : Nat} {R S : ReadFrom}

theorem nothing (g : Graph) (start : Nat) : Made g start nothingRead :=
  fun _ _ h => h.elim

theorem or {later : Nat} (h : Made g start R) (h' : Made g later S) (hle : start ≤ later) :
    Made g start (R.or S) := by
  intro object element hrel
  rcases hrel with hrel | hrel
  · obtain ⟨hstart, hmade⟩ := h object element hrel
    exact ⟨hstart, hmade.imp fun _ _ => Or.inl⟩
  · obtain ⟨hstart, hmade⟩ := h' object element hrel
    exact ⟨Nat.le_trans hle hstart, hmade.imp fun _ _ => Or.inr⟩

/-- What was read stays as it is where it is left alone. -/
theorem leftAlone {p q : Pass} (h : Made p.graph start R) (hleft : LeftAlone p q) :
    Made q.graph start R := by
  intro object element hrel
  obtain ⟨hstart, c, hread, hrest⟩ := h object element hrel
  exact ⟨hstart, c, (hleft.component (Graph.index_lt_size hread)).trans hread, hrest⟩

/-- Writing to an earlier object. -/
theorem set (h : Made g start R) {target : ObjectId} (htarget : target.index < start)
    (c : Component) :
    Made (g.set target c) start R := by
  intro object element hrel
  obtain ⟨hstart, shown, hread, hrest⟩ := h object element hrel
  refine ⟨hstart, shown, ?_, hrest⟩
  rw [Graph.component?_set_of_ne g (by rintro rfl; omega) c]
  exact hread

end Made

/-- A pass over the framework's types, in which no key is declared on an object yet to be made. -/
structure Ready (p : Pass) : Prop where
  catalog : p.resolver.catalog = Forms.catalog
  unknown : ∀ object : ObjectId, p.graph.size ≤ object.index → p.keys.key? object = none

theorem Ready.leftAlone {p q : Pass} (h : Ready p) (hleft : LeftAlone p q) : Ready q :=
  ⟨hleft.catalog.trans h.catalog, fun _ => hleft.unknown⟩

/-- An element whose object is made and has the given key, while what stands inside it is read. -/
structure Reading (p : Pass) (R : ReadFrom) (opened : OpenElement) (key : Option String)
    (slots : Slots) : Prop where
  ready : Ready p
  type : frameworkType? opened.tag = some opened.type
  object : ∃ c, p.graph.component? opened.object = some c ∧ c.type = opened.type ∧ Shows R c slots
  key : p.keys.key? opened.object = key
  made : Made p.graph (opened.object.index + 1) R

theorem mem_types_of_frameworkType? {tag : StartTag} {type : TypeInfo}
    (h : frameworkType? tag = some type) : type ∈ Forms.types :=
  List.mem_of_find?_eq_some h

namespace Reading

variable {p q next : Pass} {R S : ReadFrom} {opened : OpenElement} {key : Option String}
  {slots : Slots}

/-- More was read, inside the element and after what was read before. -/
theorem child (h : Reading p R opened key slots) (hleft : LeftAlone p q)
    (hmade : Made q.graph p.graph.size S) : Reading q (R.or S) opened key slots := by
  obtain ⟨c, hread, htype, hshows⟩ := h.object
  have hknown := Graph.index_lt_size hread
  refine ⟨h.ready.leftAlone hleft, h.type, ⟨c, ?_, htype, ?_⟩, ?_, ?_⟩
  · exact (hleft.component hknown).trans hread
  · exact hshows.imp fun _ _ => Or.inl
  · exact (hleft.key hknown).trans h.key
  · exact (h.made.leftAlone hleft).or hmade hknown

/-- A value was assigned to the element's object. -/
theorem assign (h : Reading p R opened key slots) {name : String} {raw : RawValue} {given : Given}
    (hgiven : Delivers R raw given)
    (hassign : p.assign opened.object opened.type name raw = .ok next) :
    Reading next R opened key (slots.assign opened.type name given) := by
  obtain ⟨c, hread, htype, hshows⟩ := h.object
  have hassigned := Pass.assigned_of_assign hassign
  obtain ⟨written, hgraph, hwritten, hshown⟩ :=
    hshows.assigned hread (mem_types_of_frameworkType? h.type) hgiven hassigned
  refine ⟨⟨?_, ?_⟩, h.type, ⟨written, ?_, hwritten.trans htype, hshown⟩, ?_, ?_⟩
  · rw [hassigned.resolver]
    exact h.ready.catalog
  · rw [hgraph, Graph.size_set, hassigned.keys]
    exact h.ready.unknown
  · rw [hgraph]
    exact Graph.component?_set_self hread written
  · rw [hassigned.keys]
    exact h.key
  · rw [hgraph]
    exact h.made.set (Nat.lt_succ_self _) written

/-- A child was inserted into the element's object. -/
theorem insert (h : Reading p R opened key slots) {object : ObjectId} {element : Element}
    (hrel : R object element) (hkey : p.keys.key? object = declaredKey element.tag.attributes)
    (hinsert : p.insertChild opened.object opened.type object = (.ok (), next)) :
    Reading next R opened key (slots.insert opened.type element) := by
  obtain ⟨c, hread, htype, hshows⟩ := h.object
  have hlater : opened.object.index < object.index := (h.made object element hrel).1
  have hinserted := p.inserted_insertChild opened.object opened.type object
  rw [hinsert] at hinserted
  cases hinserted with
  | item d items hkind hthere hitems =>
    rw [hread] at hthere
    cases hthere
    refine ⟨⟨h.ready.catalog, ?_⟩, h.type, ⟨_, Graph.component?_set_self hread _, htype, ?_⟩,
      h.key, ?_⟩
    · rw [Pass.update, Graph.size_set]
      exact h.ready.unknown
    · have hitems' := hshows.items
      rw [hitems] at hitems'
      simp only [Slots.insert, hkind]
      exact ⟨List.rel_append hitems' (.cons hrel .nil), hshows.values, hshows.entries, hshows.id,
        hshows.idPlain⟩
    · exact h.made.set (Nat.lt_succ_self _) _
  | entry d entries declared resources hkind hdeclared hthere hentries =>
    rw [hread] at hthere
    cases hthere
    -- the child was made after its parent, so the key that is taken is not the parent's own
    have hne : object ≠ opened.object := by rintro rfl; omega
    refine ⟨⟨h.ready.catalog, ?_⟩, h.type,
      ⟨_, Graph.component?_set_self hread _, htype, ?_⟩, ?_, ?_⟩
    · intro other hother
      rw [Pass.update, Graph.size_set] at hother
      rw [KeyTable.key?_erase]
      split
      · rfl
      · exact h.ready.unknown other hother
    · have hentries' := hshows.entries
      rw [keyedEntries, hentries] at hentries'
      rw [hdeclared] at hkey
      simp only [Slots.insert, hkind, ← hkey]
      exact ⟨hshows.items, hshows.values, OrderedMap.rel_insertEntry hentries' declared hrel,
        hshows.id, hshows.idPlain⟩
    · rw [KeyTable.key?_erase, if_neg hne]
      exact h.key
    · exact h.made.set (Nat.lt_succ_self _) _

end Reading

end MarkupForms.Hydration
