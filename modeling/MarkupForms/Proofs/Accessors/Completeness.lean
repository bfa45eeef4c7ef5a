import MarkupForms.Proofs.Accessors.Tags
import MarkupForms.Proofs.Hydration.Balance

/-!
# Which documents a scan takes for complete

A scan keeps no account of what is open. It stops at the end of the document wherever that is, and
takes up every start tag behind the first one, whether it stands inside the root element or not. So
a document that breaks off, or goes on behind its root element, may have accessors although it
cannot be loaded.

`NodeFeed.Ends` says when neither is the case, and `complete_iff_ends` that the document is
complete, with all fields inside its root element, in exactly that case.
-/

namespace MarkupForms

open Markup Hydration

/-! ## Feeds that end what is open -/

/-- The elements that are open are ended, and where none is open, there is only white space. -/
def Markup.NodeFeed.Ends : (opened : List String) → NodeFeed → Prop
  | opened, .node _ first rest => (opened = [] → first = .blank) ∧ rest.Ends (first.after opened)
  | opened, .finished _ => opened = []
  | _, .fault _ _ => False

namespace Hydration

theorem ends_blanksThenEnd (finish : Place) (blanks : List Place) :
    (blanksThenEnd finish blanks).Ends [] := by
  induction blanks with
  | nil => rfl
  | cons place blanks ih => exact ⟨fun _ => rfl, ih⟩

/-- Inside an element any node may stand. -/
theorem ends_node {name : String} {outer : List String} (place : Place) (node : Node)
    {rest : NodeFeed} (h : rest.Ends (node.after (name :: outer))) :
    (NodeFeed.node place node rest).Ends (name :: outer) :=
  ⟨fun hnone => absurd hnone (List.cons_ne_nil name outer), h⟩

mutual

/-- An element inside others leaves open what was open. -/
theorem ends_element {name : String} {outer : List String} {rest : NodeFeed}
    (h : rest.Ends (name :: outer)) :
    (element : Element) → (element.followedBy rest).Ends (name :: outer)
  | .selfClosed place tag closes => by
    apply ends_node place (.element tag)
    rw [Node.after_of_closes closes]
    exact h
  | .enclosing place tag opens contents behind => by
    apply ends_node place (.element tag)
    rw [Node.after_of_opens (by rw [opens]; decide)]
    exact ends_contents (ends_node behind (.endElement tag.name.written) h) contents

theorem ends_contents {name : String} {outer : List String} {rest : NodeFeed}
    (h : rest.Ends (name :: outer)) :
    (contents : Contents) → (contents.followedBy rest).Ends (name :: outer)
  | .none => h
  | .text place content more => ends_node place (.text content) (ends_contents h more)
  | .blank place more => ends_node place .blank (ends_contents h more)
  | .element first more => ends_element (ends_contents h more) first

end

/-- What ends the open elements one after the other leaves nothing open. -/
theorem ClosesAll.ends {opened : List String} {feed : NodeFeed} (h : ClosesAll opened feed) :
    feed.Ends opened := by
  induction opened generalizing feed with
  | nil =>
    obtain ⟨finish, blanks, rfl⟩ := h
    exact ends_blanksThenEnd finish blanks
  | cons name outer ih =>
    obtain ⟨contents, behind, rest, rfl, hrest⟩ := h
    exact ends_contents (ends_node behind (.endElement name) (ih hrest)) contents

/-- In a feed that matches, the ends are those of the open elements. -/
theorem closesAll_of_ends {opened : List String} {feed : NodeFeed} (hmatched : feed.Matched opened)
    (h : feed.Ends opened) : ClosesAll opened feed := by
  induction feed generalizing opened with
  | fault place fault => exact h.elim
  | finished place =>
    have hnone : opened = [] := h
    subst hnone
    exact ⟨place, [], rfl⟩
  | node place node rest ih =>
    obtain ⟨hfits, hrest⟩ := hmatched
    obtain ⟨hblank, hends⟩ := h
    have hcloses := ih hrest hends
    cases opened with
    | cons name outer => exact ClosesAll.node hfits hcloses
    | nil =>
      have hnode := hblank rfl
      subst hnode
      obtain ⟨finish, blanks, rfl⟩ := hcloses
      exact ⟨finish, place :: blanks, rfl⟩

/-- Behind the tag of a document's root, what the tag leaves open is ended. -/
theorem closesAll_behindTag (root : Element) (finish : Place) (blanks : List Place) :
    ClosesAll ((Node.element root.tag).after [])
      (root.behindTag (blanksThenEnd finish blanks)) := by
  cases root with
  | selfClosed place tag closes =>
    show ClosesAll ((Node.element tag).after []) _
    rw [Node.after_of_closes closes]
    exact ⟨finish, blanks, rfl⟩
  | enclosing place tag opens contents behind =>
    show ClosesAll ((Node.element tag).after []) _
    rw [Node.after_of_opens (by rw [opens]; decide)]
    exact ⟨contents, behind, _, rfl, finish, blanks, rfl⟩

end Hydration

namespace Accessors

section Scanning

/- The position of an offset in the document. -/
variable (position : Nat → Option Position)

/-- If what is found behind the root's tag ends what the tag leaves open, the feed is that of a
document. -/
theorem exists_document_of_findRoot {feed rest : NodeFeed} {root : StartTag}
    (hmatched : feed.Matched []) (hroot : (findRoot position feed).1 = .ok (root, rest))
    (hends : rest.Ends ((Node.element root).after [])) : ∃ doc : Document, feed = doc.feed := by
  induction feed with
  | fault place fault => cases hroot
  | finished place => cases hroot
  | node place node more ih =>
    obtain ⟨hfits, hrest⟩ := hmatched
    cases node with
    | text content =>
      obtain ⟨doc, rfl⟩ := ih hrest hroot
      exact ⟨{ doc with prolog := .text place content :: doc.prolog }, rfl⟩
    | blank =>
      obtain ⟨doc, rfl⟩ := ih hrest hroot
      exact ⟨{ doc with prolog := .blank place :: doc.prolog }, rfl⟩
    | endElement written => cases hfits
    | element tag =>
      cases hroot
      exact exists_document_of_closesAll (closesAll_of_ends hrest hends)

/-- The document is complete, and all fields name elements inside its root. -/
def Complete (feed : NodeFeed) (set : AccessorSet) : Prop :=
  ∃ doc : Document, feed = doc.feed ∧
    ∀ field ∈ set.fields, ∃ element ∈ doc.root.inner, Names set.namespaceName element.tag field

theorem complete_iff_ends {feed rest : NodeFeed} {root : StartTag} {set : AccessorSet}
    (hmatched : feed.Matched []) (hroot : (findRoot position feed).1 = .ok (root, rest))
    (hscan : (scanFeed position feed).1 = .ok (some set)) :
    Complete feed set ↔ rest.Ends ((Node.element root).after []) := by
  constructor
  · rintro ⟨doc, rfl, -⟩
    rw [findRoot_document] at hroot
    cases hroot
    exact (closesAll_behindTag doc.root doc.finish doc.epilog).ends
  · intro hends
    obtain ⟨doc, rfl⟩ := exists_document_of_findRoot position hmatched hroot hends
    exact ⟨doc, rfl, names_of_scanFeed position hscan⟩

theorem collectTags_ne_ok {error : ScanError} {classNamespace : Option String}
    {fields result : OrderedMap Field} {tags : List StartTag} :
    collectTags (some error) classNamespace fields tags ≠ .ok result := by
  induction tags generalizing fields with
  | nil =>
    intro h
    cases h
  | cons tag tags ih =>
    rw [collectTags]
    cases (addElement classNamespace fields tag).1 with
    | error fault =>
      intro h
      cases h
    | ok more => exact ih

/-- Behind a root that declares a class the document is read to its end. -/
theorem fault?_of_scanClass {text : String} {rest : NodeFeed} {set : AccessorSet}
    (h : (scanClass position text rest).1 = .ok (some set)) : rest.fault? = none := by
  obtain ⟨fields, hcollect, -⟩ := scanClass_eq_ok position h
  rw [collectFields_eq] at hcollect
  cases hfault : rest.fault? with
  | none => rfl
  | some found =>
    rw [endingOf, hfault] at hcollect
    exact absurd hcollect collectTags_ne_ok

end Scanning

/-- **When what a scan accepts is complete.** If a text has accessors, it has no fault, and each
field names an element that starts somewhere behind the tag of the root. The document is complete,
with all fields inside its root, if and only if what follows the root's tag ends all that is open
and holds only white space outside. The scan does not look for either: whatever other text without a
fault has the same start tags, it gives the same accessors. -/
theorem scan_complete_iff {text : String} {set : AccessorSet} (h : (scan text).1 = .ok (some set)) :
    ∃ root rest,
      (findRoot (Position.ofOffset? text.toList) (NodeFeed.ofText text.toList)).1 =
        .ok (root, rest) ∧
      (NodeFeed.ofText text.toList).fault? = none ∧
      (∀ field ∈ set.fields, ∃ tag ∈ rest.tags, Names set.namespaceName tag field) ∧
      (Complete (NodeFeed.ofText text.toList) set ↔ rest.Ends ((Node.element root).after [])) ∧
      ∀ other : String, (NodeFeed.ofText other.toList).fault? = none →
        (NodeFeed.ofText other.toList).tags = (NodeFeed.ofText text.toList).tags →
        (scan other).1 = .ok (some set) := by
  obtain ⟨root, rest, className, hroot, -, hclass⟩ :=
    scanFeed_eq_ok (Position.ofOffset? text.toList) h
  have hfault : (NodeFeed.ofText text.toList).fault? = none := by
    rcases findRoot_cases (Position.ofOffset? text.toList) (NodeFeed.ofText text.toList) with
      ⟨-, hnone⟩ | ⟨_, _, hfound, -, hsame⟩
    · rw [hroot] at hnone
      cases hnone
    · rw [hroot] at hfound
      cases hfound
      rw [hsame]
      exact fault?_of_scanClass _ hclass
  refine ⟨root, rest, hroot, hfault, fun field hfield =>
    (names_of_scanClass _ hclass field hfield).1, ?_,
    fun other hother htags => ?_⟩
  · exact complete_iff_ends _ (NodeFeed.matched_ofText text.toList) hroot h
  · rw [scan_eq, endingOf, hfault] at h
    rw [scan_eq, endingOf, hother, htags]
    exact h

/-! ## Where they are not -/

/-- A document that breaks off inside its root element. -/
def truncatedText : String :=
  "<StackLayout xmlns:x='http://schemas.microsoft.com/winfx/2006/xaml' x:Class='A.B'>" ++
    "<Label Id='a'/>"

/-- A document with a second element behind its root element. -/
def secondRootText : String :=
  "<Label xmlns:x='http://schemas.microsoft.com/winfx/2006/xaml' x:Class='A.B'/><Entry Id='e'/>"

/-- The same elements, complete. -/
def completeText : String :=
  "<StackLayout xmlns:x='http://schemas.microsoft.com/winfx/2006/xaml' x:Class='A.B'>" ++
    "<Label Id='a'/></StackLayout>"

/-- The tag of the root in the three documents. -/
def classTag (name : String) (selfClosing : Bool) : StartTag :=
  ⟨⟨name, name, ""⟩,
    [⟨⟨"xmlns:x", "x", declarationNamespace⟩, metadataNamespace⟩,
      ⟨⟨"x:Class", "Class", metadataNamespace⟩, "A.B"⟩], selfClosing⟩

/-- The tag of an element with an id. -/
def idTag (name id : String) : StartTag :=
  ⟨⟨name, name, ""⟩, [⟨⟨"Id", "Id", ""⟩, id⟩], true⟩

theorem truncatedText_feed : NodeFeed.ofText truncatedText.toList =
    .node ⟨0, 0⟩ (.element (classTag "StackLayout" false))
      (.node ⟨82, 0⟩ (.element (idTag "Label" "a")) (.finished ⟨97, 0⟩)) := by
  unfold truncatedText
  rw [String.toList_append]
  iterate 2 rw [String.toList_ofList]
  rw [NodeFeed.ofText_eq]
  decide +kernel

theorem secondRootText_feed : NodeFeed.ofText secondRootText.toList =
    .node ⟨0, 0⟩ (.element (classTag "Label" true)) (.node ⟨77, 0⟩ (.element (idTag "Entry" "e"))
      (.finished ⟨92, 0⟩)) := by
  rw [secondRootText, String.toList_ofList, NodeFeed.ofText_eq]
  decide +kernel

theorem completeText_feed : NodeFeed.ofText completeText.toList =
    .node ⟨0, 0⟩ (.element (classTag "StackLayout" false))
      (.node ⟨82, 0⟩ (.element (idTag "Label" "a"))
        (.node ⟨97, 0⟩ (.endElement "StackLayout") (.finished ⟨111, 0⟩))) := by
  unfold completeText
  rw [String.toList_append]
  iterate 2 rw [String.toList_ofList]
  rw [NodeFeed.ofText_eq]
  decide +kernel

/-- The accessors of a class with one field. -/
def singleSet (id typeName : String) : AccessorSet :=
  ⟨some "A", "B", [⟨id, id, "::kiln_model::forms::" ++ typeName⟩]⟩

theorem scan_truncatedText : (scan truncatedText).1 = .ok (some (singleSet "a" "Label")) := by
  rw [scan_of_feed truncatedText_feed]
  rfl

theorem scan_secondRootText : (scan secondRootText).1 = .ok (some (singleSet "e" "Entry")) := by
  rw [scan_of_feed secondRootText_feed]
  rfl

theorem scan_completeText : (scan completeText).1 = .ok (some (singleSet "a" "Label")) := by
  rw [scan_of_feed completeText_feed]
  rfl

/-- The complete document is taken for complete, and gives the accessors that the truncated one
gives. -/
theorem scan_complete_iff_completeText :
    (scan completeText).1 = .ok (some (singleSet "a" "Label")) ∧
      Complete (NodeFeed.ofText completeText.toList) (singleSet "a" "Label") ∧
      (scan truncatedText).1 = .ok (some (singleSet "a" "Label")) := by
  obtain ⟨root, rest, hroot, -, -, hcomplete, hother⟩ := scan_complete_iff scan_completeText
  refine ⟨scan_completeText, hcomplete.2 ?_, hother truncatedText ?_ ?_⟩
  · rw [completeText_feed] at hroot
    cases hroot
    simp [NodeFeed.Ends, Node.after, classTag, idTag]
  · rw [truncatedText_feed]
    rfl
  · rw [truncatedText_feed, completeText_feed]
    rfl

/-- A document that breaks off inside its root has accessors, and so has one with a second root,
whose only field is the second root. -/
theorem not_every_scan_complete :
    ((scan truncatedText).1 = .ok (some (singleSet "a" "Label")) ∧
        ¬ Complete (NodeFeed.ofText truncatedText.toList) (singleSet "a" "Label")) ∧
      (scan secondRootText).1 = .ok (some (singleSet "e" "Entry")) ∧
        ¬ Complete (NodeFeed.ofText secondRootText.toList) (singleSet "e" "Entry") := by
  refine ⟨⟨scan_truncatedText, ?_⟩, scan_secondRootText, ?_⟩
  · have hscan := scan_truncatedText
    rw [scan_of_feed truncatedText_feed] at hscan
    have hmatched := NodeFeed.matched_ofText truncatedText.toList
    rw [truncatedText_feed] at hmatched ⊢
    rw [complete_iff_ends _ hmatched rfl hscan]
    -- the layout is open at the end
    simp [NodeFeed.Ends, Node.after, classTag, idTag]
  · have hscan := scan_secondRootText
    rw [scan_of_feed secondRootText_feed] at hscan
    have hmatched := NodeFeed.matched_ofText secondRootText.toList
    rw [secondRootText_feed] at hmatched ⊢
    rw [complete_iff_ends _ hmatched rfl hscan]
    -- nothing is open where the entry starts
    simp [NodeFeed.Ends, Node.after, classTag]

end Accessors

end MarkupForms
