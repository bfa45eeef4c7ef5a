import MarkupForms.Proofs.Hydration.Balance
import MarkupForms.Proofs.Hydration.Reading

/-!
# A document and its objects

The induction over the tree of a document: wherever its evaluation succeeds, the objects that it
makes were read from its elements. So the graph below the root mirrors what the elements keep.
-/

namespace MarkupForms.Hydration

open Markup

/-! ## The tag of an element -/

theorem frameworkType?_of_resolveTag {p resolved : Pass} {tag : StartTag} {type : TypeInfo}
    (hcatalog : p.resolver.catalog = Forms.catalog) (h : p.resolveTag tag = (.ok type, resolved)) :
    frameworkType? tag = some type := by
  rcases hresolve : p.resolver.resolve tag.name.uri tag.name.localName with ⟨result, next⟩
  unfold Pass.resolveTag at h
  rw [hresolve] at h
  cases h
  obtain ⟨_, _, hlookup⟩ := Resolver.lookup_of_resolve hresolve
  rw [hcatalog] at hlookup
  obtain ⟨hmem, hname⟩ := Forms.mem_of_lookup hlookup
  rw [frameworkType?, ← hname]
  exact (Forms.regular_of_mem hmem).find?

namespace Reading

variable {p q next : Pass} {R : ReadFrom} {opened : OpenElement} {key : Option String}
  {slots : Slots}

/-- A key was declared on the element's object. -/
theorem declare (h : Reading p R opened key slots) (declared : String) :
    Reading { p with keys := p.keys.declare opened.object declared } R opened
      (some declared) slots := by
  obtain ⟨c, hread, hrest⟩ := h.object
  have hknown := Graph.index_lt_size hread
  refine ⟨⟨h.ready.catalog, fun object hobject => ?_⟩, h.type, h.object, ?_, h.made⟩
  · rw [KeyTable.key?_declare, if_neg (by rintro rfl; exact absurd hknown (Nat.not_lt.2 hobject))]
    exact h.ready.unknown object hobject
  · rw [KeyTable.key?_declare, if_pos rfl]

theorem applyAttribute (h : Reading p R opened key slots) {attr : Markup.Attribute}
    (happly : p.applyAttribute opened.object opened.type attr = .ok next) :
    Reading next R opened (keyAfter key attr) (slots.applyAttribute opened.type attr) := by
  unfold Pass.applyAttribute at happly
  unfold keyAfter Slots.applyAttribute
  cases hrole : Pass.roleOf attr.name with
  | property name =>
    rw [hrole] at happly
    exact h.assign (.text attr.value) happly
  | key =>
    rw [hrole] at happly
    cases happly
    exact h.declare attr.value
  | ignored =>
    rw [hrole] at happly
    cases happly
    exact h

theorem applyAttributes (h : Reading p R opened key slots) (attrs : List Markup.Attribute)
    (happly : p.applyAttributes opened.object opened.type attrs = (.ok (), next)) :
    Reading next R opened (attrs.foldl keyAfter key)
      (attrs.foldl (Slots.applyAttribute opened.type) slots) := by
  induction attrs generalizing p key slots with
  | nil => cases happly; exact h
  | cons attr attrs ih =>
    rw [Pass.applyAttributes] at happly
    cases hattr : p.applyAttribute opened.object opened.type attr with
    | error error => rw [hattr] at happly; cases happly
    | ok between =>
      rw [hattr] at happly
      exact ih (h.applyAttribute hattr) happly

end Reading

/-- **A tag opens an element to be read**: a new object, made where the graph ended. -/
theorem reading_openElement {position : Nat → Option Position} {p q : Pass} {tag : StartTag}
    {start : Nat} {opened : OpenElement} (hp : Ready p)
    (h : openElement position p none tag start = (.ok opened, q)) :
    opened.tag = tag ∧ opened.object.index = p.graph.size ∧
      Reading q nothingRead opened (declaredKey tag.attributes)
        (tag.attributes.foldl (Slots.applyAttribute opened.type) .empty) := by
  obtain ⟨type, resolved, taken, made, hresolve, htake, happly, rfl⟩ := openElement_eq_ok h
  have hgraph := p.graph_resolveTag tag
  have hcatalog := p.catalog_resolveTag tag
  have hkeys := p.keys_resolveTag tag
  rw [hresolve] at hgraph hcatalog hkeys
  have htype := frameworkType?_of_resolveTag hp.catalog hresolve
  rw [Pass.takeObject] at htake
  cases hconstruct : construct resolved.graph type with
  | error error => rw [hconstruct] at htake; cases htake
  | ok new =>
    obtain ⟨object, graph⟩ := new
    rw [hconstruct] at htake
    cases htake
    obtain ⟨state, hstate, halloc⟩ := construct_eq_ok hconstruct
    rw [hgraph] at halloc
    cases halloc
    have hblank := (Forms.regular_of_mem (mem_types_of_frameworkType? htype)).blank hstate
    -- the blank object is being read with nothing kept; the attributes follow one by one
    suffices hmade : Reading _ nothingRead ⟨tag, _, type, start, none⟩ none .empty from
      ⟨rfl, rfl, hmade.applyAttributes _ happly⟩
    refine ⟨⟨hcatalog.trans hp.catalog, fun other hother => ?_⟩, htype,
      ⟨{ state with type := type }, ?_, rfl, ?_⟩, ?_, ?_⟩
    · replace hother : (p.graph.alloc { state with type := type }).2.size ≤ other.index := hother
      rw [Graph.size_alloc] at hother
      exact (congrArg (KeyTable.key? · other) hkeys).trans
        (hp.unknown other (Nat.le_of_succ_le hother))
    · exact Graph.component?_alloc_new _ _
    · exact shows_blank hblank type
    · exact (congrArg (KeyTable.key? · _) hkeys).trans (hp.unknown _ (Nat.le_refl _))
    · exact Made.nothing _ _

/-- One object was read from one element. -/
def readOnce (object : ObjectId) (element : Element) : ReadFrom :=
  fun other from' => other = object ∧ from' = element

theorem Reading.done {q : Pass} {R : ReadFrom} {opened : OpenElement} {key : Option String}
    {element : Element} (h : Reading q R opened key (slotsOf element))
    (htag : opened.tag = element.tag) :
    Made q.graph opened.object.index (R.or (readOnce opened.object element)) := by
  obtain ⟨c, hread, htype, hshows⟩ := h.object
  intro object inner hrel
  rcases hrel with hrel | ⟨rfl, rfl⟩
  · obtain ⟨hstart, hmade⟩ := h.made object inner hrel
    exact ⟨Nat.le_of_succ_le hstart, hmade.imp fun _ _ => Or.inl⟩
  · refine ⟨Nat.le_refl _, c, hread, ?_, hshows.imp fun _ _ => Or.inl, fun child hchild => ?_⟩
    · rw [← htag, htype]
      exact h.type
    · obtain ⟨below, -, hbelow⟩ := exists_rel_of_mem hshows.nested hchild
      exact (h.made child below hbelow).1

/-! ## The induction -/

section Evaluation

variable {position : Nat → Option Position}

/-- What the reading of an element leads to. -/
def ReadsElement (p : Pass) (element : Element) (object : ObjectId) (q : Pass) : Prop :=
  ∃ R, Made q.graph p.graph.size R ∧ R object element ∧
    q.keys.key? object = declaredKey element.tag.attributes

/-- What the reading of a property element leads to, whose tags have `contents` between them. -/
def ReadsValue (p : Pass) (contents : Contents) (raw : RawValue) (q : Pass) : Prop :=
  ∃ R given, givenIn? contents = some given ∧ Made q.graph p.graph.size R ∧ Delivers R raw given

/-- An element whose contents are read is read. -/
theorem Reading.readsElement {p q : Pass} {R : ReadFrom} {opened : OpenElement} {slots : Slots}
    (element : Element) (h : Reading q R opened (declaredKey opened.tag.attributes) slots)
    (hindex : opened.object.index = p.graph.size) (htag : opened.tag = element.tag)
    (hslots : slotsOf element = slots) : ReadsElement p element opened.object q := by
  subst hslots
  refine ⟨_, hindex ▸ h.done htag, Or.inr ⟨rfl, rfl⟩, ?_⟩
  rw [← htag]
  exact h.key

theorem leftAlone_evaluateElement {p q : Pass} {element : Element} {object : ObjectId}
    (hunknown : p.NewUnkeyed) (h : evaluateElement position p none element = (.ok object, q)) :
    LeftAlone p q := by
  have hholds : (leavesAlone p).Holds p := .refl hunknown
  have hyields := PassInvariant.evaluateElement position none hholds element fun _ h => by cases h
  rw [h] at hyields
  exact hyields.1.1

theorem leftAlone_evaluateValue {p q : Pass} {element : Element} {raw : RawValue}
    (hunknown : p.NewUnkeyed) (h : evaluateValue position p element = (.ok raw, q)) :
    LeftAlone p q := by
  have hholds : (leavesAlone p).Holds p := .refl hunknown
  have hyields := PassInvariant.evaluateValue position hholds element
  rw [h] at hyields
  exact hyields.1.1

/-- A value that is accepted is the one before the rest. -/
theorem onlyValue_eq_ok {p q : Pass} {tag : StartTag} {rest : Contents} {value raw : RawValue}
    (h : onlyValue position p tag rest value = (.ok raw, q)) : raw = value ∧ q = p := by
  unfold onlyValue at h
  split at h
  · cases h
  · cases h; exact ⟨rfl, rfl⟩

theorem assignProperty_eq_ok {p q : Pass} {parent : OpenElement} {property : String} {start : Nat}
    {value : RawValue} (h : assignProperty position p parent property start value = (.ok (), q)) :
    p.assign parent.object parent.type property value = .ok q := by
  unfold assignProperty at h
  cases hassign : p.assign parent.object parent.type property value with
  | error error => rw [hassign] at h; cases h
  | ok next => rw [hassign] at h; cases h; rfl

theorem insertObject_eq_ok {p q : Pass} {parent : OpenElement} {start : Nat} {object : ObjectId}
    (h : insertObject position p parent start object = (.ok (), q)) :
    p.insertChild parent.object parent.type object = (.ok (), q) := by
  unfold insertObject at h
  rcases hinsert : p.insertChild parent.object parent.type object with ⟨error | ⟨⟩, next⟩
  · rw [hinsert] at h; cases h
  · rw [hinsert] at h; cases h; rfl

mutual

theorem readsElement {p q : Pass} {object : ObjectId} (hp : Ready p) :
    (element : Element) → evaluateElement position p none element = (.ok object, q) →
    ReadsElement p element object q
  | .selfClosed place tag closes, h => by
    rw [evaluateElement, Located.andThen_eq_ok] at h
    obtain ⟨opened, between, hopen, hend⟩ := h
    cases hend
    obtain ⟨rfl, hindex, hreading⟩ := reading_openElement hp (Outcome.arisingAt_eq_ok.1 hopen)
    exact hreading.readsElement (.selfClosed place opened.tag closes) hindex rfl
      (slotsOf_eq hreading.type)
  | .enclosing place tag opens contents behind, h => by
    rw [evaluateElement, Located.andThen_eq_ok] at h
    obtain ⟨opened, between, hopen, hinside⟩ := h
    rw [Located.andThen_eq_ok] at hinside
    obtain ⟨⟨⟩, after, hcontents, hend⟩ := hinside
    cases hend
    obtain ⟨rfl, hindex, hreading⟩ := reading_openElement hp (Outcome.arisingAt_eq_ok.1 hopen)
    obtain ⟨R, hread⟩ := readsContents hreading contents hcontents
    exact hread.readsElement (.enclosing place opened.tag opens contents behind) hindex rfl
      (slotsOf_eq hreading.type)

/-- Contents are read into the object around them, one after the other. -/
theorem readsContents {p q : Pass} {R : ReadFrom} {parent : OpenElement} {key : Option String}
    {slots : Slots} (hreading : Reading p R parent key slots) :
    (contents : Contents) → evaluateContents position p parent contents = (.ok (), q) →
    ∃ S, Reading q S parent key (slots.fill parent.tag parent.type contents)
  | .none, h => by cases h; exact ⟨R, hreading⟩
  | .text _ _ rest, h => readsContents hreading rest h
  | .blank _ rest, h => readsContents hreading rest h
  | .element child rest, h => by
    obtain ⟨here, hposition⟩ := position_of_evaluateContents h
    simp only [evaluateContents, hposition] at h
    rw [Slots.fill]
    split at h
    · next hproperty =>
      rw [if_pos hproperty]
      cases hnamed : namedProperty? parent.tag child.tag with
      | none => rw [hnamed] at h; cases h
      | some property =>
        simp only [hnamed, Located.andThen_eq_ok] at h
        obtain ⟨value, between, hvalue, ⟨⟩, next, hassign, hrest⟩ := h
        obtain ⟨S, given, hgiven, hmade, hdelivers⟩ := readsValue hreading.ready child hvalue
        -- the parent, and all that was read before, is as it was before the value
        have hleft := leftAlone_evaluateValue hreading.ready.unknown hvalue
        have hassigned := assignProperty_eq_ok (Outcome.arisingAt_eq_ok.1 hassign)
        have hnext := (hreading.child hleft hmade).assign (hdelivers.imp fun _ _ =>
          Or.inr) hassigned
        simp only [hgiven]
        exact readsContents hnext rest hrest
    · next hproperty =>
      rw [if_neg hproperty]
      simp only [Located.andThen_eq_ok] at h
      obtain ⟨object, between, hchild, ⟨⟩, next, hinsert, hrest⟩ := h
      obtain ⟨S, hmade, hrel, hkey⟩ := readsElement hreading.ready child hchild
      have hleft := leftAlone_evaluateElement hreading.ready.unknown hchild
      have hinserted := insertObject_eq_ok (Outcome.arisingAt_eq_ok.1 hinsert)
      have hnext := (hreading.child hleft hmade).insert (Or.inr hrel) hkey hinserted
      exact readsContents hnext rest hrest

theorem readsValue {p q : Pass} {raw : RawValue} (hp : Ready p) :
    (element : Element) → evaluateValue position p element = (.ok raw, q) →
    ReadsValue p element.contents raw q
  | .selfClosed _ _ _, h => by cases h
  | .enclosing _ _ _ contents _, h => readsSingle hp contents h

theorem readsSingle {p q : Pass} {raw : RawValue} {tag : StartTag} {behind : Place} (hp : Ready p) :
    (contents : Contents) → evaluateSingle position p tag behind contents = (.ok raw, q) →
    ReadsValue p contents raw q
  | .none, h => by cases h
  | .blank _ rest, h => readsSingle hp rest h
  | .text _ content rest, h => by
    obtain ⟨rfl, rfl⟩ := onlyValue_eq_ok h
    exact ⟨nothingRead, _, rfl, Made.nothing _ _, .text _⟩
  | .element child rest, h => by
    rw [evaluateSingle] at h
    split at h
    · cases h
    · rw [Located.andThen_eq_ok] at h
      obtain ⟨object, between, hchild, honly⟩ := h
      obtain ⟨rfl, rfl⟩ := onlyValue_eq_ok honly
      obtain ⟨S, hmade, hrel, -⟩ := readsElement hp child hchild
      exact ⟨S, _, rfl, hmade, .object hrel⟩

end

end Evaluation

/-! ## What was read, in the graph -/

section Graphs

variable {g : Graph} {start : Nat} {R : ReadFrom}

/-- **The graph mirrors what elements keep.** -/
theorem Made.mirrors (h : Made g start R) : g.Mirrors R keptIn where
  nested {object element} hrel := by
    obtain ⟨-, c, hread, -, hshows, -⟩ := h object element hrel
    rw [Graph.nested, hread]
    exact hshows.nested
  later {object element} hrel child hchild := by
    obtain ⟨-, c, hread, -, -, hlater⟩ := h object element hrel
    rw [Graph.nested, hread] at hchild
    exact hlater child hchild
  known {object element} hrel := by
    obtain ⟨-, c, hread, -⟩ := h object element hrel
    exact Graph.index_lt_size hread

/-- An object has the id that its element has in the end. -/
theorem Made.hasId (h : Made g start R) (id : String) {object : ObjectId} {element : Element}
    (hrel : R object element) : g.hasId id object = (finalId? element == some id) := by
  obtain ⟨-, c, hread, -, hshows, -⟩ := h object element hrel
  rw [Graph.hasId, Graph.get?, hread, finalId?, ← hshows.get?_id]
  rfl

/-- An object's type has the name of its element. -/
theorem Made.typeName (h : Made g start R) {object : ObjectId} {element : Element}
    (hrel : R object element) :
    g.typeName object = Resolver.baseName element.tag.name.localName := by
  obtain ⟨-, c, hread, htype, -⟩ := h object element hrel
  have hname : c.type.name == Resolver.baseName element.tag.name.localName := by
    simpa using List.find?_some htype
  rw [Graph.typeName, hread]
  exact eq_of_beq hname

end Graphs

/-! ## Documents -/

/-- **A document that is loaded over the framework's types is read into objects that mirror its
tree.** -/
theorem made_of_load {graph after : Graph} {localModule : Option String} {text : String}
    {root : ObjectId} (h : LoadRequest.load ⟨graph, Forms.catalog, localModule, none⟩ text =
      (.ok root, after)) :
    ∃ (doc : Document) (R : ReadFrom), NodeFeed.ofText text.toList = doc.feed ∧
      Made after graph.size R ∧ R root doc.root := by
  obtain ⟨doc, hfeed, q, hevaluate, rfl⟩ := exists_evaluation_of_load h
  have hready : Ready (LoadRequest.pass ⟨graph, Forms.catalog, localModule, none⟩) :=
    ⟨rfl, fun _ _ => rfl⟩
  obtain ⟨R, hmade, hrel, -⟩ := readsElement hready doc.root hevaluate
  exact ⟨doc, R, hfeed, hmade, hrel⟩

end MarkupForms.Hydration
