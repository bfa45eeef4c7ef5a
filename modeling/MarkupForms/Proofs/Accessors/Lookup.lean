import MarkupForms.Proofs.Accessors.Scan
import MarkupForms.Proofs.Hydration.Mirror

/-!
# Looking up the named elements of a document

The accessors of a document name elements; the search by id finds objects. The two agree on the
elements that the document keeps: a field's object is found exactly if some kept element has the
field's id in the end, and then it is the object of the first such element, level by level.

An element may be named and yet not be found: as the template of a list, among the resources, where
another value takes its place, or under a second id. And an id that is given twice may lead to
another element than the one its field is typed by.
-/

namespace MarkupForms.Accessors

open Markup Hydration

/-- The element is kept, at some depth below the root. -/
def Kept (root element : Element) : Prop :=
  ∃ depth, element ∈ levelBelow keptIn (keptIn root) depth

/-- The element is the first, level by level, of the kept elements that have the id in the end. -/
def FirstKept (root : Element) (id : String) (element : Element) : Prop :=
  ∃ depth, FirstAt keptIn (fun kept => finalId? kept == some id) (keptIn root) depth element

/-- What is kept below the root stands inside it. -/
theorem Kept.mem_inner {root element : Element} (h : Kept root element) : element ∈ root.inner := by
  obtain ⟨depth, hmem⟩ := h
  have hlevel : ∀ kept ∈ keptIn root, kept ∈ root.inner := fun _ => mem_inner_of_mem_keptIn
  -- the levels are unfolded from the top, so the level above is what varies
  generalize keptIn root = level at hmem hlevel
  induction depth generalizing level with
  | zero => exact hlevel element hmem
  | succ depth ih =>
    refine ih (level.flatMap keptIn) hmem fun kept hkept => ?_
    obtain ⟨above, habove, hbelow⟩ := List.mem_flatMap.1 hkept
    exact Element.inner_trans (mem_inner_of_mem_keptIn hbelow) root (hlevel above habove)

theorem exists_firstKept {root kept : Element} {id : String} (hkept : Kept root kept)
    (hid : finalId? kept = some id) : ∃ first, FirstKept root id first := by
  obtain ⟨depth, hmem⟩ := hkept
  have hmatch : (finalId? kept == some id) = true := beq_iff_eq.2 hid
  obtain ⟨nearest, -, first, hfirst⟩ :=
    exists_firstAt (p := fun element => finalId? element == some id) hmem hmatch
  exact ⟨first, nearest, hfirst⟩

theorem FirstKept.kept {root element : Element} {id : String} (h : FirstKept root id element) :
    Kept root element ∧ finalId? element = some id := by
  obtain ⟨depth, hfirst⟩ := h
  obtain ⟨hmem, hid⟩ := mem_of_firstAt hfirst
  exact ⟨⟨depth, hmem⟩, eq_of_beq hid⟩

/-- **What a named element is looked up as.** If a document has accessors and is loaded over the
framework's types, then every field names an element inside the root by its id and has the path to
that element's type. An object is found under the field's id exactly if some kept element has that
id in the end, and the object found is of a given type exactly if the first such element, level by
level, names that type. -/
theorem findById_field {graph after : Graph} {text : String} {root : ObjectId} {set : AccessorSet}
    (hscan : (scan text).1 = .ok (some set))
    (hload : LoadRequest.load ⟨graph, Forms.catalog, none, none⟩ text = (.ok root, after)) :
    ∃ doc : Document, NodeFeed.ofText text.toList = doc.feed ∧ ∀ field ∈ set.fields,
      (∃ element ∈ doc.root.inner, Names set.namespaceName element.tag field) ∧
      ((after.findById root field.id).isSome ↔
        ∃ kept ∈ doc.root.inner, Kept doc.root kept ∧ finalId? kept = some field.id) ∧
      ∀ typeName,
        (∃ object, after.findById root field.id = some object ∧ after.typeName object = typeName) ↔
          ∃ first ∈ doc.root.inner, FirstKept doc.root field.id first ∧
            Resolver.baseName first.tag.name.localName = typeName := by
  obtain ⟨doc, R, hfeed, hmade, hroot⟩ := made_of_load hload
  have hscanned : (scanFeed (Position.ofOffset? text.toList) doc.feed).1 = .ok (some set) := by
    rw [← hfeed]
    exact hscan
  have hobject : ∀ id first, FirstKept doc.root id first → ∃ object, R object first ∧
      after.findById root id = some object := by
    rintro id first ⟨depth, hfirst⟩
    exact hmade.mirrors.findById_eq (fun _ _ hrel => hmade.hasId id hrel) hroot hfirst
  have hfirst : ∀ id object, after.findById root id = some object →
      ∃ first, FirstKept doc.root id first ∧ R object first := by
    intro id object hfound
    obtain ⟨depth, first, hfirst, hrel⟩ :=
      hmade.mirrors.of_findById (fun _ _ hrel => hmade.hasId id hrel) hroot hfound
    exact ⟨first, ⟨depth, hfirst⟩, hrel⟩
  refine ⟨doc, hfeed, fun field hfield =>
    ⟨names_of_scanFeed _ hscanned field hfield, ⟨fun hsome => ?_, ?_⟩,
    fun typeName => ⟨?_, ?_⟩⟩⟩
  · obtain ⟨object, hfound⟩ := Option.isSome_iff_exists.1 hsome
    obtain ⟨first, hfirst, -⟩ := hfirst field.id object hfound
    obtain ⟨hkept, hid⟩ := hfirst.kept
    exact ⟨first, hkept.mem_inner, hkept, hid⟩
  · rintro ⟨kept, -, hkept, hid⟩
    obtain ⟨first, hfirst⟩ := exists_firstKept hkept hid
    obtain ⟨object, -, hfound⟩ := hobject field.id first hfirst
    exact Option.isSome_iff_exists.2 ⟨object, hfound⟩
  · rintro ⟨object, hfound, htype⟩
    obtain ⟨first, hfirst, hrel⟩ := hfirst field.id object hfound
    refine ⟨first, hfirst.kept.1.mem_inner, hfirst, ?_⟩
    rw [← hmade.typeName hrel, htype]
  · rintro ⟨first, -, hfirst, htype⟩
    obtain ⟨object, hrel, hfound⟩ := hobject field.id first hfirst
    exact ⟨object, hfound, (hmade.typeName hrel).trans htype⟩

/-! ## Where they differ -/

/-- A label, a list with a template, and an entry that has the label's id. -/
def listText : String :=
  "<StackLayout xmlns:x='http://schemas.microsoft.com/winfx/2006/xaml' x:Class='A.B'>" ++
    "<Label Id='d'/><ListView><ListView.ItemTemplate><Label Id='t'/></ListView.ItemTemplate>" ++
    "</ListView><StackLayout><Entry Id='d'/></StackLayout></StackLayout>"

/-- A tag without prefix whose only attribute is an id, if it has one. -/
def tagOf (name : String) (id : Option String) (selfClosing : Bool) : StartTag :=
  ⟨⟨name, name, ""⟩, (id.map fun id => ⟨⟨"Id", "Id", ""⟩, id⟩).toList, selfClosing⟩

/-- The tree of `listText`. -/
def listDocument : Document where
  prolog := []
  root :=
    .enclosing ⟨0, 0⟩
      ⟨⟨"StackLayout", "StackLayout", ""⟩,
        [⟨⟨"xmlns:x", "x", "http://www.w3.org/2000/xmlns/"⟩, metadataNamespace⟩,
          ⟨⟨"x:Class", "Class", metadataNamespace⟩, "A.B"⟩], false⟩ rfl
      (.element (.selfClosed ⟨82, 0⟩ (tagOf "Label" (some "d") true) rfl) <|
        .element
          (.enclosing ⟨97, 0⟩ (tagOf "ListView" none false) rfl
            (.element
              (.enclosing ⟨107, 0⟩ (tagOf "ListView.ItemTemplate" none false) rfl
                (.element (.selfClosed ⟨130, 0⟩ (tagOf "Label" (some "t") true) rfl) .none)
                ⟨145, 0⟩)
              .none)
            ⟨169, 0⟩) <|
        .element
          (.enclosing ⟨180, 0⟩ (tagOf "StackLayout" none false) rfl
            (.element (.selfClosed ⟨193, 0⟩ (tagOf "Entry" (some "d") true) rfl) .none)
            ⟨208, 0⟩)
          .none)
      ⟨222, 0⟩
  epilog := []
  finish := ⟨236, 0⟩

/-- The accessors of `listText`: the entry has taken the label's place. -/
def listSet : AccessorSet :=
  ⟨some "A", "B", [⟨"d", "d", "::kiln_model::forms::Entry"⟩,
    ⟨"t", "t", "::kiln_model::forms::Label"⟩]⟩

/-- The nodes of `listText` are those of `listDocument`. -/
theorem listText_feed : NodeFeed.ofText listText.toList = listDocument.feed := by
  unfold listText
  iterate 2 rw [String.toList_append]
  iterate 3 rw [String.toList_ofList]
  rw [NodeFeed.ofText_eq]
  decide +kernel

theorem scan_listText : (scan listText).1 = .ok (some listSet) := by
  rw [scan_of_feed listText_feed]
  rfl

/-- The graph that the tree of `listText` is read into. -/
def listGraph : Graph :=
  (assemble (fun _ => some ⟨1, 1⟩) (.start .empty (.ofCatalog Forms.catalog none))
    (.prolog none) listDocument.feed).2.graph

theorem load_listText :
    LoadRequest.load ⟨.empty, Forms.catalog, none, none⟩ listText = (.ok ⟨0⟩, listGraph) := by
  rw [LoadRequest.load_eq_ok listText_feed (by decide +kernel) ⟨0⟩ rfl]
  rfl

/-- Over `listText`, the fields that lead to an object are those whose id a kept element has in the
end. -/
theorem findById_field_listText :
    (scan listText).1 = .ok (some listSet) ∧
      LoadRequest.load ⟨.empty, Forms.catalog, none, none⟩ listText = (.ok ⟨0⟩, listGraph) ∧
      ∃ doc : Document, NodeFeed.ofText listText.toList = doc.feed ∧ ∀ field ∈ listSet.fields,
        (∃ element ∈ doc.root.inner, Names listSet.namespaceName element.tag field) ∧
        ((listGraph.findById ⟨0⟩ field.id).isSome ↔
          ∃ kept ∈ doc.root.inner, Kept doc.root kept ∧ finalId? kept = some field.id) := by
  obtain ⟨doc, hfeed, hfields⟩ := findById_field scan_listText load_listText
  exact ⟨scan_listText, load_listText, doc, hfeed, fun field hfield =>
    ⟨(hfields field hfield).1, (hfields field hfield).2.1⟩⟩

theorem findById_listText : listGraph.findById ⟨0⟩ "t" = none ∧
    listGraph.findById ⟨0⟩ "d" = some ⟨1⟩ ∧ listGraph.typeName ⟨1⟩ = "Label" :=
  ⟨rfl, rfl, rfl⟩

/-- Not every field leads to an object, and not every object that a field leads to has the type of
the field. -/
theorem not_every_field_found :
    (¬ ∀ text set root after, (scan text).1 = .ok (some set) →
        LoadRequest.load ⟨.empty, Forms.catalog, none, none⟩ text = (.ok root, after) →
        ∀ field ∈ set.fields, ∃ object, after.findById root field.id = some object) ∧
      ¬ ∀ text set root after, (scan text).1 = .ok (some set) →
        LoadRequest.load ⟨.empty, Forms.catalog, none, none⟩ text = (.ok root, after) →
        ∀ field ∈ set.fields, ∀ object, after.findById root field.id = some object →
          ∀ name, field.typePath = "::kiln_model::forms::" ++ name →
          after.typeName object = name := by
  obtain ⟨htemplate, hduplicate, htype⟩ := findById_listText
  constructor
  · intro law
    obtain ⟨object, hobject⟩ := law listText listSet ⟨0⟩ listGraph scan_listText load_listText
      ⟨"t", "t", "::kiln_model::forms::Label"⟩ (by decide)
    rw [htemplate] at hobject
    cases hobject
  · intro law
    have hentry := law listText listSet ⟨0⟩ listGraph scan_listText load_listText
      ⟨"d", "d", "::kiln_model::forms::Entry"⟩ (by decide) ⟨1⟩ hduplicate "Entry" (by decide)
    rw [htype] at hentry
    exact absurd hentry (by decide)

end MarkupForms.Accessors
