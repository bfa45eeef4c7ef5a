import MarkupForms.Proofs.Accessors.Prefixes
import MarkupForms.Proofs.Markup.EmptyElement

/-!
# Elements without content mean the same in either form

When a tag closes itself, a load ends the element at once: an object goes where it belongs, and a
property element has no value. That is what it would do at an end tag right behind a start tag
(`assemble_paired`). To a scan, which looks at start tags only, it makes no difference whether a tag
closes itself (`scanTags_opening`). So of two documents that differ in how elements without content
are written, both are loaded to the same and have the same accessors.
-/

namespace MarkupForms

open Markup Hydration

/-! ## Loads -/

namespace Hydration

section Loads

variable {position : Nat → Option Position}

theorem openElement_opening (p : Pass) (given : Option ObjectId) (tag : StartTag) (start : Nat) :
    openElement position p given tag.opening start =
      match openElement position p given tag start with
      | (.ok element, q) => (.ok { element with tag := tag.opening }, q)
      | (.error error, q) => (.error error, q) := by
  have hresolve : p.resolveTag tag.opening = p.resolveTag tag := rfl
  unfold openElement
  rw [hresolve]
  rcases p.resolveTag tag with ⟨error | type, q⟩
  · rfl
  · dsimp only
    rcases q.takeObject type given with ⟨error | object, q⟩
    · rfl
    · dsimp only
      have happly : q.applyAttributes object type tag.opening.attributes =
          q.applyAttributes object type tag.attributes := rfl
      rw [happly]
      rcases q.applyAttributes object type tag.attributes with ⟨error | ⟨⟩, q⟩ <;> rfl

variable {tag : StartTag} (hcloses : tag.selfClosing = true) (place : Place) (rest : NodeFeed)

include hcloses

/-- An element that is ended right behind its start is ended as one whose tag closes itself. -/
theorem startElement_opening (p : Pass) (given : Option ObjectId) (outer : List OpenElement) :
    (startElement position p given tag.opening place.start outer).goOn position
        (.node place (.endElement tag.name.written) rest) =
      (startElement position p given tag place.start outer).goOn position rest := by
  unfold startElement
  rw [openElement_opening]
  rcases hopen : openElement position p given tag place.start with ⟨error | element, q⟩
  · rfl
  · obtain ⟨type, resolved, taken, object, -, -, -, rfl⟩ := openElement_eq_ok hopen
    have hopens : ¬ tag.opening.selfClosing = true := nofun
    dsimp only
    -- the element is open and has no property open, so the end tag closes it
    rw [if_neg hopens, if_pos hcloses]
    rfl

/-- A property element that is ended right behind its start has no value. -/
theorem startProperty_opening (p : Pass) (element : OpenElement) (outer : List OpenElement) :
    (startProperty position p element outer tag.opening place.start).goOn position
        (.node place (.endElement tag.name.written) rest) =
      (startProperty position p element outer tag place.start).goOn position rest := by
  have hnamed : namedProperty? element.tag tag.opening = namedProperty? element.tag tag := rfl
  unfold startProperty
  rw [hnamed]
  cases namedProperty? element.tag tag with
  | none => rfl
  | some property =>
    have hopens : ¬ tag.opening.selfClosing = true := nofun
    dsimp only
    rw [if_neg hopens, if_pos hcloses]
    rfl

/-- Step: wherever the document has come to, a start tag and an end tag do what a tag does that
closes itself. -/
theorem step_opening (p : Pass) (stage : Stage) :
    (step position p stage place.start (.element tag.opening)).goOn position
        (.node place (.endElement tag.name.written) rest) =
      (step position p stage place.start (.element tag)).goOn position rest := by
  have hproperty : tag.opening.isPropertyElement = tag.isPropertyElement := rfl
  cases stage with
  | prolog root => exact startElement_opening hcloses place rest p root []
  | epilog root => rfl
  | content element outer =>
    cases hslot : element.property with
    | none =>
      simp only [step, hslot, stepElement, hproperty]
      split
      · rfl
      split
      · exact startProperty_opening hcloses place rest p element outer
      · exact startElement_opening hcloses place rest p none (element :: outer)
    | some slot =>
      simp only [step, hslot, stepProperty, hproperty]
      cases slot.value with
      | some value => rfl
      | none =>
        dsimp only
        split
        · rfl
        · exact startElement_opening hcloses place rest p none (element :: outer)

omit hcloses

/-- Run: with every tag that closes itself written as two, a document comes to the same. -/
theorem assemble_paired (f : NodeFeed) (p : Pass) (stage : Stage) :
    assemble position p stage f.paired = assemble position p stage f := by
  induction f generalizing p stage with
  | fault place cause => rfl
  | finished place => rfl
  | node place node rest ih =>
    have hbehind : ∀ outcome : Outcome Stage, outcome.goOn position rest.paired =
        outcome.goOn position rest := by
      rintro ⟨error | next, q⟩
      · rfl
      · exact ih q next
    rw [assemble_node, ← hbehind, NodeFeed.paired]
    cases node with
    | element tag =>
      rw [Node.parts]
      split
      · next hcloses => exact step_opening hcloses place rest.paired p stage
      · rfl
    | endElement written => rfl
    | text content => rfl
    | blank => rfl

end Loads

/-- Documents with the same nodes are loaded to the same, or refused for reasons of the same kind,
if neither load breaks off. -/
theorem load_sameNodes (request : LoadRequest) {text other : String}
    (h : (NodeFeed.ofText text.toList).paired.SameNodes (NodeFeed.ofText other.toList).paired)
    (htext : ¬ request.BreaksOff text) (hother : ¬ request.BreaksOff other) :
    (request.load other).1.mapError MarkupError.kind =
      (request.load text).1.mapError MarkupError.kind ∧
      (request.load other).2 = (request.load text).2 := by
  obtain ⟨graph, catalog, localModule, root⟩ := request
  let p := Pass.start graph (.ofCatalog catalog localModule)
  have hfollows := Comparison.sameResolver.assemble (p := p)
    (Comparison.sameResolver_same (Position.ofOffset? text.toList)
      (Position.ofOffset? other.toList)) h.alike
    (Comparison.sameResolver_same _ _) (.prolog root) rfl
  rw [Pass.withResolver_self, assemble_paired, assemble_paired] at hfollows
  exact hfollows.mapError_kind id htext hother

end Hydration

/-! ## Scans -/

namespace Accessors

section Scans

variable {ending : Option ScanError}

theorem collectTags_opening (classNamespace : Option String) (fields : OrderedMap Field)
    (tags : List StartTag) :
    collectTags ending classNamespace fields (tags.map StartTag.opening) =
      collectTags ending classNamespace fields tags := by
  induction tags generalizing fields with
  | nil => rfl
  | cons tag tags ih =>
    have hadd : addElement classNamespace fields tag.opening =
      addElement classNamespace fields tag := rfl
    rw [List.map_cons, collectTags, collectTags, hadd]
    cases (addElement classNamespace fields tag).1 with
    | error error => rfl
    | ok more => exact ih more

/-- A scan does not ask whether a tag closes itself. -/
theorem scanTags_opening (tags : List StartTag) :
    scanTags ending (tags.map StartTag.opening) = scanTags ending tags := by
  cases tags with
  | nil => rfl
  | cons root behind =>
    have hclass : root.opening.attribute? metadataNamespace "Class" =
      root.attribute? metadataNamespace "Class" := rfl
    rw [List.map_cons, scanTags, scanTags, hclass]
    cases root.attribute? metadataNamespace "Class" with
    | none => rfl
    | some className => simp only [scanClassTags, collectTags_opening]

theorem tags_paired
    (f : NodeFeed) : f.paired.tags.map StartTag.opening = f.tags.map StartTag.opening := by
  induction f with
  | fault place cause => rfl
  | finished place => rfl
  | node place node rest ih =>
    cases node with
    | endElement written => exact ih
    | text content => exact ih
    | blank => exact ih
    | element tag =>
      rw [NodeFeed.paired, Node.parts]
      split <;> exact congrArg (tag.opening :: ·) ih

theorem endingOf_paired (position : Nat → Option Position) (f : NodeFeed) :
    endingOf position f.paired = endingOf position f := by
  have hfault : ∀ (place : Place) (nodes : List Node) (g : NodeFeed),
      (nodes.foldr (.node place) g).fault? = g.fault? := by
    intro place nodes g
    induction nodes with
    | nil => rfl
    | cons node nodes ih => exact ih
  suffices hsame : f.paired.fault? = f.fault? by rw [endingOf, hsame, endingOf]
  induction f with
  | fault place cause => rfl
  | finished place => rfl
  | node place node rest ih => exact (hfault place node.parts rest.paired).trans ih

theorem scanFeed_paired (position : Nat → Option Position) (f : NodeFeed) :
    (scanFeed position f.paired).1 = (scanFeed position f).1 := by
  rw [scanFeed_eq, scanFeed_eq, endingOf_paired, ← scanTags_opening, tags_paired, scanTags_opening]

end Scans

/-- Documents with the same nodes have the same accessors, or none for reasons of the same kind, if
neither scan breaks off. -/
theorem scan_sameNodes {text other : String}
    (h : (NodeFeed.ofText text.toList).paired.SameNodes (NodeFeed.ofText other.toList).paired)
    (htext : ¬ ScanBreaksOff text) (hother : ¬ ScanBreaksOff other) :
    (scan other).1.mapError ScanError.kind = (scan text).1.mapError ScanError.kind := by
  have hagree := scanTags_alike
    (endingOf_agrees (Position.ofOffset? text.toList) (Position.ofOffset? other.toList)
      (fault?_alike h.alike))
    h.alike.tags
  rw [← scanFeed_eq, ← scanFeed_eq, scanFeed_paired, scanFeed_paired] at hagree
  exact hagree.mapError_kind htext hother

/-! ## Whole documents -/

/-- **Elements without content mean the same in either form**, as long as both documents are read to
their ends. Let two documents differ only in how some of the elements without content are written,
each as a tag that closes itself or as a start tag and an end tag. They have the same nodes if each
of these elements is written as two tags, the same names standing for the same namespaces. For
whatever request they are read, if neither load breaks off, both are read to the same root or both
are refused for reasons of the same kind, and the graph is the same afterwards. If neither scan
breaks off, they have the same accessors, or none for reasons of the same kind. Nothing breaks off
in a text without a byte order mark. -/
theorem emptyElements_do_not_matter {text other : String} (h : Rewritten text.toList other.toList) :
    (NodeFeed.ofText text.toList).paired.SameNodes (NodeFeed.ofText other.toList).paired ∧
      (∀ request : LoadRequest, ¬ request.BreaksOff text → ¬ request.BreaksOff other →
        (request.load other).1.mapError MarkupError.kind =
          (request.load text).1.mapError MarkupError.kind ∧
          (request.load other).2 = (request.load text).2) ∧
      (¬ ScanBreaksOff text → ¬ ScanBreaksOff other →
        (scan other).1.mapError ScanError.kind = (scan text).1.mapError ScanError.kind) ∧
      ∀ document ∈ [text, other], document.toList.head? ≠ some '\ufeff' →
        (∀ request : LoadRequest, ¬ request.BreaksOff document) ∧ ¬ ScanBreaksOff document :=
  ⟨h.sameNodes, fun _ => load_sameNodes _ h.sameNodes, scan_sameNodes h.sameNodes,
    fun _ _ hmark => unbroken_of_unmarked hmark⟩

/-- The start tag of a page, without its brackets. -/
def pageTag : String :=
  "StackLayout xmlns:x='http://schemas.microsoft.com/winfx/2006/xaml' x:Class='A.B'"

/-- What that tag is read as. -/
def pageRoot : StartTag where
  name := ⟨"StackLayout", "StackLayout", ""⟩
  attributes :=
    [⟨⟨"xmlns:x", "x", declarationNamespace⟩, metadataNamespace⟩,
      ⟨⟨"x:Class", "Class", metadataNamespace⟩, "A.B"⟩]
  selfClosing := false

/-- A page with two elements without content, written as given. -/
def emptyElementsText (label entry : String) : String :=
  "<" ++ pageTag ++ ">" ++ label ++ entry ++ "</StackLayout>"

theorem emptyElement_label :
    EmptyElement "Label Id='a'".toList "<Label Id='a'/>".toList ∧
      EmptyElement "Label Id='a'".toList "<Label Id='a' ></Label>".toList :=
  ⟨@EmptyElement.selfClosing _ [] (by decide) ⟨rfl, by decide⟩,
    @EmptyElement.enclosing _ [' '] "Label".toList (by decide) ⟨rfl, by decide⟩ (by decide)
    ⟨rfl, by decide⟩
      (by decide)⟩

theorem emptyElement_entry :
    EmptyElement "Entry".toList "<Entry></Entry>".toList ∧
    EmptyElement "Entry".toList "<Entry />".toList :=
  ⟨@EmptyElement.enclosing _ [] "Entry".toList (by decide) ⟨rfl, by decide⟩ (by decide)
    ⟨rfl, by decide⟩ (by decide), @EmptyElement.selfClosing _ [' '] (by decide) ⟨rfl, by decide⟩⟩

theorem rewritten_emptyElementsText :
    Rewritten (emptyElementsText "<Label Id='a'/>" "<Entry></Entry>").toList
      (emptyElementsText "<Label Id='a' ></Label>" "<Entry />").toList := by
  have hpage : IsMarkup .startTag pageTag.toList := ⟨rfl, by decide +kernel⟩
  have hrewritten := Rewritten.markup hpage (.element emptyElement_label.1 emptyElement_label.2
    (.element emptyElement_entry.1 emptyElement_entry.2 (.same "</StackLayout>".toList)))
  simpa [emptyElementsText] using hrewritten

theorem emptyElementsText_feed :
    NodeFeed.ofText (emptyElementsText "<Label Id='a'/>" "<Entry></Entry>").toList =
      (.node ⟨0, 0⟩ (.element pageRoot) <|
        .node ⟨82, 0⟩ (.element ⟨⟨"Label", "Label", ""⟩, [⟨⟨"Id", "Id", ""⟩, "a"⟩], true⟩) <|
        .node ⟨97, 0⟩ (.element ⟨⟨"Entry", "Entry", ""⟩, [], false⟩) <|
        .node ⟨104, 0⟩ (.endElement "Entry") <|
        .node ⟨112, 0⟩ (.endElement "StackLayout") <|
        .finished ⟨126, 0⟩) := by
  unfold emptyElementsText pageTag
  iterate 5 rw [String.toList_append]
  iterate 6 rw [String.toList_ofList]
  rw [NodeFeed.ofText_eq]
  decide +kernel

theorem emptyElementsText_unmarked (label entry : String) :
    (emptyElementsText label entry).toList.head? ≠ some '\ufeff' := by
  have hopen : "<".toList.head? = some '<' := rfl
  unfold emptyElementsText
  iterate 5 rw [String.toList_append]
  simp only [List.head?_append, hopen, Option.some_or]
  decide

/-- Both are read, and both have the same accessor. -/
theorem emptyElements_do_not_matter_page :
    Rewritten (emptyElementsText "<Label Id='a'/>" "<Entry></Entry>").toList
        (emptyElementsText "<Label Id='a' ></Label>" "<Entry />").toList ∧
      (LoadRequest.load ⟨.empty, Forms.catalog, none, none⟩
        (emptyElementsText "<Label Id='a' ></Label>" "<Entry />")).1.mapError MarkupError.kind =
          .ok ⟨0⟩ ∧
      (scan (emptyElementsText "<Label Id='a' ></Label>" "<Entry />")).1.mapError ScanError.kind =
        .ok (some ⟨some "A", "B", [⟨"a", "a", "::kiln_model::forms::Label"⟩]⟩) := by
  obtain ⟨-, hload, hscan, hends⟩ := emptyElements_do_not_matter rewritten_emptyElementsText
  obtain ⟨hloadFirst, hscanFirst⟩ := hends _ List.mem_cons_self (emptyElementsText_unmarked _ _)
  obtain ⟨hloadSecond, hscanSecond⟩ :=
    hends _ (List.mem_cons_of_mem _ List.mem_cons_self) (emptyElementsText_unmarked _ _)
  refine ⟨rewritten_emptyElementsText, ?_, ?_⟩
  · rw [(hload ⟨.empty, Forms.catalog, none, none⟩ (hloadFirst _) (hloadSecond _)).1,
      (LoadRequest.load_of_unmarked emptyElementsText_feed (emptyElementsText_unmarked _ _)).1]
    rfl
  · rw [hscan hscanFirst hscanSecond, scan_of_feed emptyElementsText_feed]
    rfl

/-- A page behind a byte order mark that breaks off behind an element. -/
def brokenPage (element : String) : String :=
  "\ufeff<" ++ pageTag ++ ">" ++ element ++ "<b"

/-- The name of the element ends with a character of two bytes. -/
theorem rewritten_brokenPage :
    Rewritten (brokenPage "<Café/>").toList (brokenPage "<Café></Café>").toList := by
  have hpage : IsMarkup .startTag pageTag.toList := ⟨rfl, by decide +kernel⟩
  have hclosed : EmptyElement "Café".toList "<Café/>".toList :=
    @EmptyElement.selfClosing _ [] (by decide) ⟨rfl, by decide⟩
  have hpaired : EmptyElement "Café".toList "<Café></Café>".toList :=
    @EmptyElement.enclosing _ [] "Café".toList (by decide) ⟨rfl, by decide⟩ (by decide)
      ⟨rfl, by decide⟩ (by decide)
  have hmark : '<' ∉ "\ufeff".toList := by decide
  have hrewritten :=
    Rewritten.run hmark (.markup hpage (.element hclosed hpaired (.same "<b".toList)))
  simpa [brokenPage] using hrewritten

theorem brokenPage_feed :
    NodeFeed.ofText (brokenPage "<Café/>").toList =
        (.node ⟨0, 0⟩ (.element pageRoot) <|
          .node ⟨82, 0⟩ (.element ⟨⟨"Café", "Café", ""⟩, [], true⟩) <|
          .fault ⟨90, 0⟩ (.unreadable (.lexical .unclosedTag))) ∧
      NodeFeed.ofText (brokenPage "<Café></Café>").toList =
        (.node ⟨0, 0⟩ (.element pageRoot) <|
          .node ⟨82, 0⟩ (.element ⟨⟨"Café", "Café", ""⟩, [], false⟩) <|
          .node ⟨89, 0⟩ (.endElement "Café") <|
            .fault ⟨97, 0⟩ (.unreadable (.lexical .unclosedTag))) := by
  rw [NodeFeed.ofText_eq, NodeFeed.ofText_eq]
  decide +kernel

/-- Not every two such documents end alike. Behind a byte order mark the place of the fault, counted
without the mark, is inside the character of two bytes if the element closes itself, and the scan
breaks off; behind an end tag it is between two characters, and the fault is reported. -/
theorem not_all_rewritten_end_alike :
    ¬ ∀ text other : String, Rewritten text.toList other.toList →
      (scan other).1.mapError ScanError.kind = (scan text).1.mapError ScanError.kind := by
  intro law
  obtain ⟨hclosed, hpaired⟩ := brokenPage_feed
  have hsame := law _ _ rewritten_brokenPage
  rw [scan_of_feed hclosed, scan_of_feed hpaired] at hsame
  have hended : (.error (.markup .structural) : Except ScanErrorKind (Option AccessorSet)) =
      .error (.markup .aborted) := hsame
  cases hended

end Accessors

end MarkupForms
