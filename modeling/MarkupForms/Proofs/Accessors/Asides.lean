import MarkupForms.Proofs.Accessors.Prefixes
import MarkupForms.Proofs.Hydration.Interruption

/-!
# Asides do not matter, except inside a value

A comment or a processing instruction may stand anywhere in the content of a document. To a scan it
makes no difference. To a load it makes none, either, unless it parts the text that is the value of
a property element. Such a value arrives as two nodes, of which the second is one too many, so the
document is refused.

That is a defect: the cursor passes over asides so that nothing further on sees them, and a text
with a comment in it is one value to whoever wrote it.
-/

namespace MarkupForms

open Markup Hydration

/-! ## Loads -/

namespace Hydration

/-- The load of a document with one more aside, in terms of the nodes. -/
theorem load_interrupted (request : LoadRequest) {text other : String} {divided : Bool}
    (h : (NodeFeed.ofText text.toList).placeless.Interrupted divided []
      (NodeFeed.ofText other.toList).placeless)
    (htext : ¬ request.BreaksOff text) (hother : ¬ request.BreaksOff other) :
    (divided = false →
      (request.load other).1.mapError MarkupError.kind =
        (request.load text).1.mapError MarkupError.kind ∧
        (request.load other).2 = (request.load text).2) ∧
      (divided = true → ∃ kind, (request.load other).1.mapError MarkupError.kind = .error kind ∧
        (kind = .structural ∨ (request.load text).1.mapError MarkupError.kind = .error kind)) := by
  obtain ⟨graph, catalog, localModule, root⟩ := request
  have hstrict : ¬ Comparison.sameResolver.Lenient := id
  have hnamed : (Stage.prolog root).NamedApart := trivial
  let p := Pass.start graph (.ofCatalog catalog localModule)
  let anywhere : Nat → Option Position := fun _ => some ⟨1, 1⟩
  -- without places no reading breaks off
  have hunbroken (f : NodeFeed) : (assemble anywhere p (.prolog root) f).1 ≠ .error .aborted := by
    have hplaced : (Stage.prolog root).Placed anywhere := trivial
    exact assemble_unbroken (NodeFeed.positioned_of_forall (fun _ => rfl) f) hplaced
  -- the places are taken out of the first document, the aside is put in, and the places of the
  -- second are put in
  have hout := Comparison.sameResolver.assemble (p := p)
    (Comparison.sameResolver_same (Position.ofOffset? text.toList) anywhere)
    (NodeFeed.alike_placeless (.ofText text.toList)).1 (Comparison.sameResolver_same _ _)
    (.prolog root) rfl
  have hparted := Comparison.sameResolver.assemble_interrupted (p :=
    p) anywhere anywhere trivial h hstrict (.prolog root) hnamed rfl rfl
  have hin := Comparison.sameResolver.assemble (p := p)
    (Comparison.sameResolver_same anywhere (Position.ofOffset? other.toList))
    (NodeFeed.alike_placeless (.ofText other.toList)).2 (Comparison.sameResolver_same _ _)
    (.prolog root) rfl
  rw [Pass.withResolver_self] at hout hparted hin
  have hout := hout.mapError_kind hstrict htext (hunbroken _)
  have hin := hin.mapError_kind hstrict (hunbroken _) hother
  constructor
  · intro hwhole
    have hsame := (hparted.whole hwhole).mapError_kind hstrict (hunbroken _) (hunbroken _)
    exact ⟨hin.1.trans (hsame.1.trans hout.1), hin.2.trans (hsame.2.trans hout.2)⟩
  · intro hdivided
    rcases hparted.refused hdivided with ⟨error, herror, hkind⟩ | ⟨-, hfirst | hsecond⟩
    · rw [herror] at hin
      refine ⟨error.kind, hin.1, hkind.imp_right fun hsame => ?_⟩
      exact hout.1.symm.trans hsame
    · exact absurd hfirst (hunbroken _)
    · exact absurd hsecond (hunbroken _)

end Hydration

/-! ## Scans -/

namespace Accessors

theorem tags_placeless (f : NodeFeed) : f.placeless.tags = f.tags := by
  induction f with
  | fault _ _ => rfl
  | finished _ => rfl
  | node place node rest ih =>
    cases node with
    | element tag => exact congrArg (tag :: ·) ih
    | endElement written => exact ih
    | text content => exact ih
    | blank => exact ih

theorem tags_runNode (place : Place) (content : List Char) (f : NodeFeed) :
    (NodeFeed.node place (runNode content) f).tags = f.tags := by
  unfold runNode
  split <;> rfl

theorem tags_interrupted {divided : Bool} {opened : List String} {f g : NodeFeed}
    (h : f.Interrupted divided opened g) : f.tags = g.tags := by
  induction h with
  | fault _ _ _ _ => rfl
  | between _ _ => rfl
  | text _ _ _ f _ => rw [tags_runNode, tags_runNode, tags_runNode]
  | badText _ _ _ _ _ => rw [tags_runNode]; rfl
  | @node _ node _ _ _ _ _ _ ih =>
    cases node with
    | element tag => exact congrArg (tag :: ·) ih
    | endElement written => exact ih
    | text content => exact ih
    | blank => exact ih

/-- Both documents end with a fault, or both without one. -/
theorem fault?_interrupted {divided : Bool} {opened : List String} {f g : NodeFeed}
    (h : f.Interrupted divided opened g) : f.fault?.isSome = g.fault?.isSome := by
  induction h with
  | fault _ _ _ _ => rfl
  | between _ _ => rfl
  | text _ _ _ _ _ => rfl
  | badText _ _ _ _ _ => rfl
  | node _ _ _ _ ih => exact ih

theorem scan_interrupted {text other : String} {divided : Bool}
    (h : (NodeFeed.ofText text.toList).placeless.Interrupted divided []
      (NodeFeed.ofText other.toList).placeless)
    (htext : ¬ ScanBreaksOff text) (hother : ¬ ScanBreaksOff other) :
    (scan other).1.mapError ScanError.kind = (scan text).1.mapError ScanError.kind := by
  have htags := tags_interrupted h
  rw [tags_placeless, tags_placeless] at htags
  have hfault : (NodeFeed.ofText text.toList).fault?.isSome =
      (NodeFeed.ofText other.toList).fault?.isSome :=
    calc (NodeFeed.ofText text.toList).fault?.isSome
      _ = _ := fault?_alike (NodeFeed.alike_placeless (.ofText text.toList)).1
      _ = _ := fault?_interrupted h
      _ = _ := fault?_alike (NodeFeed.alike_placeless (.ofText other.toList)).2
  have hagree := scanTags_alike
    (endingOf_agrees (Position.ofOffset? text.toList) (Position.ofOffset? other.toList) hfault)
    (List.forall₂_same.2 fun tag (_ : tag ∈ (NodeFeed.ofText other.toList).tags) => .refl tag)
  rw [ScanBreaksOff, scan_eq] at htext hother
  rw [scan_eq, scan_eq]
  rw [htags] at htext ⊢
  exact hagree.mapError_kind htext hother

/-! ## Whole documents -/

/-- **Asides do not matter, except inside a value**, as long as both documents are read to their
ends. Let a document differ from another in one aside only, at any place in its content. If neither
scan breaks off, both have the same accessors, or none for reasons of the same kind. If for some
request neither load breaks off and the aside does not part the value of a property element, both
are read to the same root or both are refused for reasons of the same kind, and the graph is the
same afterwards. If it does, the document with the aside is refused: for its shape, or for a reason
of the kind for which the other is refused. Nothing breaks off in a text without a byte order
mark. -/
theorem asides_do_not_matter (gap : Gap) {aside : List Char} (haside : IsAside aside)
    {text other : String} (htext : (Reader.ofText text.toList).rest = gap.text)
    (hother : (Reader.ofText other.toList).rest = gap.textWith aside) :
    (¬ ScanBreaksOff text → ¬ ScanBreaksOff other →
        (scan other).1.mapError ScanError.kind = (scan text).1.mapError ScanError.kind) ∧
      (∀ request : LoadRequest, ¬ request.BreaksOff text → ¬ request.BreaksOff other →
        (gap.partsValue = false →
          (request.load other).1.mapError MarkupError.kind =
            (request.load text).1.mapError MarkupError.kind ∧
            (request.load other).2 = (request.load text).2) ∧
        (gap.partsValue = true → ∃ kind, (request.load other).1.mapError MarkupError.kind =
          .error kind ∧
          (kind = .structural ∨ (request.load text).1.mapError MarkupError.kind = .error kind))) ∧
      ∀ document ∈ [text, other], document.toList.head? ≠ some '\ufeff' →
        (∀ request : LoadRequest, ¬ request.BreaksOff document) ∧ ¬ ScanBreaksOff document := by
  have hinterrupted : (NodeFeed.ofText text.toList).placeless.Interrupted gap.partsValue []
      (NodeFeed.ofText other.toList).placeless := by
    rw [placeless_ofText, placeless_ofText, htext, hother]
    exact gap.interrupted haside
  exact ⟨scan_interrupted hinterrupted, fun request => load_interrupted request hinterrupted,
    fun _ _ hmark => unbroken_of_unmarked hmark⟩

/-- A label with this content. -/
def labelText (content : String) : String :=
  "<Label>" ++ content ++ "</Label>"

/-- The place behind the first letter of a label's content. -/
def contentGap : Gap where
  before := "<Label>".toList
  run := "a".toList
  after := " b</Label>".toList
  opened := ["Label".toList]
  complete := @Complete.piece [] [] [] .startTag "Label".toList .nil (by decide) ⟨rfl, by decide⟩
  plain := by decide
  uncut := not_cutsReference_of_plain (by decide)

/-- The place behind the first letter of the value of a label's text. -/
def valueGap : Gap where
  before := "<Label><Label.Text>".toList
  run := "a".toList
  after := " b</Label.Text></Label>".toList
  opened := ["Label.Text".toList, "Label".toList]
  complete :=
    @Complete.piece ["Label".toList] "<Label>".toList [] .startTag "Label.Text".toList
      contentGap.complete (by decide) ⟨rfl, by decide⟩
  plain := by decide
  uncut := not_cutsReference_of_plain (by decide)

theorem isAside_comment : IsAside "<!-- c -->".toList :=
  .comment " c ".toList (by decide)

theorem labelText_feeds :
    NodeFeed.ofText (labelText "a b").toList =
        .node ⟨0, 0⟩ (.element ⟨⟨"Label", "Label", ""⟩, [], false⟩)
          (.node ⟨7, 0⟩ (.text "a b") (.node ⟨10, 0⟩ (.endElement "Label") (.finished ⟨18, 0⟩))) ∧
      NodeFeed.ofText (labelText "<Label.Text>a b</Label.Text>").toList =
        .node ⟨0, 0⟩ (.element ⟨⟨"Label", "Label", ""⟩, [], false⟩)
          (.node ⟨7, 0⟩ (.element ⟨⟨"Label.Text", "Label.Text", ""⟩, [], false⟩)
            (.node ⟨19, 0⟩ (.text "a b")
              (.node ⟨22, 0⟩ (.endElement "Label.Text")
                (.node ⟨35, 0⟩ (.endElement "Label") (.finished ⟨43, 0⟩))))) ∧
      NodeFeed.ofText (labelText "<Label.Text>a<!-- c --> b</Label.Text>").toList =
        .node ⟨0, 0⟩ (.element ⟨⟨"Label", "Label", ""⟩, [], false⟩)
          (.node ⟨7, 0⟩ (.element ⟨⟨"Label.Text", "Label.Text", ""⟩, [], false⟩)
            (.node ⟨19, 0⟩ (.text "a")
              (.node ⟨30, 1⟩ (.text " b")
                (.node ⟨32, 0⟩ (.endElement "Label.Text")
                  (.node ⟨45, 0⟩ (.endElement "Label") (.finished ⟨53, 0⟩)))))) := by
  rw [NodeFeed.ofText_eq, NodeFeed.ofText_eq, NodeFeed.ofText_eq]
  decide +kernel

/-- A request for new objects of the framework. -/
def newLabelRequest : LoadRequest :=
  ⟨.empty, Forms.catalog, none, none⟩

theorem labelText_unmarked (content : String) :
    (labelText content).toList.head? ≠ some '\ufeff' := by
  have hopen : "<Label>".toList.head? = some '<' := rfl
  unfold labelText
  iterate 2 rw [String.toList_append]
  simp only [List.head?_append, hopen, Option.some_or]
  decide

/-- No load of a label breaks off. -/
theorem labelText_unbroken (content : String) : ¬ newLabelRequest.BreaksOff (labelText content) :=
  (unbroken_of_unmarked (labelText_unmarked content)).1 newLabelRequest

/-- Without the aside both labels are read. -/
theorem load_labelText :
    (newLabelRequest.load (labelText "a b")).1.mapError MarkupError.kind = .ok ⟨0⟩ ∧
      (newLabelRequest.load (labelText "<Label.Text>a b</Label.Text>")).1.mapError
        MarkupError.kind = .ok ⟨0⟩ := by
  rw [(LoadRequest.load_of_unmarked labelText_feeds.1 (labelText_unmarked _)).1,
    (LoadRequest.load_of_unmarked labelText_feeds.2.1 (labelText_unmarked _)).1]
  exact ⟨rfl, rfl⟩

/-- An aside in the content of the label changes nothing; in the value of its text it is refused. -/
theorem asides_do_not_matter_labelText :
    contentGap.partsValue = false ∧
      (newLabelRequest.load (labelText "a<!-- c --> b")).1.mapError MarkupError.kind = .ok ⟨0⟩ ∧
      valueGap.partsValue = true ∧
      (newLabelRequest.load (labelText "<Label.Text>a<!-- c --> b</Label.Text>")).1.mapError
        MarkupError.kind = .error .structural := by
  have hcontent : contentGap.partsValue = false := by decide
  have hvalue : valueGap.partsValue = true := by decide
  have hlabel : (Reader.ofText (labelText "a b").toList).rest = contentGap.text := by decide
  have hlabelWith : (Reader.ofText (labelText "a<!-- c --> b").toList).rest =
      contentGap.textWith "<!-- c -->".toList := by decide
  have htext : (Reader.ofText (labelText "<Label.Text>a b</Label.Text>").toList).rest =
    valueGap.text := by decide
  have htextWith :
      (Reader.ofText (labelText "<Label.Text>a<!-- c --> b</Label.Text>").toList).rest =
      valueGap.textWith "<!-- c -->".toList := by decide
  obtain ⟨-, hcontents, -⟩ := asides_do_not_matter contentGap isAside_comment hlabel hlabelWith
  obtain ⟨-, hvalues, -⟩ := asides_do_not_matter valueGap isAside_comment htext htextWith
  obtain ⟨kind, hrefused, hkind⟩ :=
    (hvalues newLabelRequest (labelText_unbroken _) (labelText_unbroken _)).2 hvalue
  have hsame := (hcontents newLabelRequest (labelText_unbroken _) (labelText_unbroken _)).1 hcontent
  refine ⟨hcontent, hsame.1.trans load_labelText.1, hvalue, ?_⟩
  rcases hkind with rfl | hsame
  · exact hrefused
  · rw [load_labelText.2] at hsame
    cases hsame

/-- Not every aside goes unnoticed: a comment in the text of a label makes it unreadable. -/
theorem not_every_aside_unnoticed :
    ¬ ∀ (gap : Gap) (aside : List Char), IsAside aside → ∀ text other : String,
      (Reader.ofText text.toList).rest = gap.text →
      (Reader.ofText other.toList).rest = gap.textWith aside →
        ∀ request : LoadRequest,
          (request.load other).1.mapError MarkupError.kind =
            (request.load text).1.mapError MarkupError.kind := by
  intro law
  have hsame := law valueGap _ isAside_comment (labelText "<Label.Text>a b</Label.Text>")
    (labelText "<Label.Text>a<!-- c --> b</Label.Text>") (by decide) (by decide) newLabelRequest
  rw [load_labelText.2,
    (LoadRequest.load_of_unmarked labelText_feeds.2.2 (labelText_unmarked _)).1] at hsame
  have hrefused : Except.error ErrorKind.structural = (.ok ⟨0⟩ : Except ErrorKind ObjectId) := hsame
  cases hrefused

end Accessors

end MarkupForms
