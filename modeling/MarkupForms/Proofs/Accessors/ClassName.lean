import MarkupForms.Proofs.Accessors.Tags
import MarkupForms.Proofs.Markup.Declaration
import MarkupForms.Showcase.Types

/-!
# Names are read back

Three writers make texts that declarations are read from: a document that says where its elements'
types are, a type that shows its full name, and an author who gives the class of a document. The
namespaces, modules and names that were written are those that are read. For a class this shows in
the full name of its accessors, which is the class as it was written, wherever in it the dots stand.
-/

namespace MarkupForms.Accessors

open Markup Text

/-- The parts of an unmarked class make up its text again. -/
theorem fullClass_of_parse {text : String} {decl : Declaration} {set : AccessorSet}
    (hsemicolon : ';' ∉ text.toList) (hmark : ¬Marked (trimmed text))
    (hdecl : Declaration.parse text = .ok decl) (htype : decl.typeName = some set.className)
    (hnamespace : decl.namespaceName = set.namespaceName) :
    set.fullClass = trimmed text := by
  rw [Declaration.parse_single hsemicolon, Declaration.withSegment_unmarked hmark] at hdecl
  unfold AccessorSet.fullClass
  rw [← hnamespace]
  split at hdecl
  · cases hdecl
  · have heq := Except.ok.inj hdecl
    rcases Declaration.withDotted_cases ⟨none, none, none⟩ (trim text.toList) with
      hwhole | ⟨before, after, htext, hparts⟩
    · rw [hwhole] at heq
      cases heq
      exact (Option.some.inj htype).symm
    · rw [hparts] at heq
      cases heq
      show String.ofList before ++ "." ++ set.className = trimmed text
      rw [← Option.some.inj htype, trimmed, htext]
      apply String.toList_injective
      simp

/-- **Names are read back as they were written.** A namespace and a module do not depend on their
order or on the blanks around them, a type's full name gives its namespace and its name, and the
class of accessors is the trimmed text of the class attribute. -/
theorem names_read_back :
    (∀ {name module : String}, SegmentName name → SegmentName module →
      ∀ {a b c d : String}, IsPadding a → IsPadding b → IsPadding c → IsPadding d →
        Declaration.parse (namespaceSegment a name b ++ ";" ++ moduleSegment c module d) =
            .ok ⟨some name, none, some module⟩ ∧
          Declaration.parse (moduleSegment c module d ++ ";" ++ namespaceSegment a name b) =
            .ok ⟨some name, none, some module⟩ ∧
          Declaration.parse (namespaceSegment a name b) = .ok ⟨some name, none, none⟩) ∧
    (∀ type : TypeDecl, ';' ∉ type.namespaceName.toList → ';' ∉ type.name.toList →
      '.' ∉ type.name.toList →
      ¬Marked type.fullName → StartsTight type.fullName → EndsTight type.fullName →
      type.fullName ≠ "" →
        Declaration.parse type.fullName =
          .ok ⟨if type.namespaceName = "" then none else some type.namespaceName,
            some type.name, none⟩) ∧
    ∀ (text : String) root rest className set,
      (findRoot (Position.ofOffset? text.toList) (NodeFeed.ofText text.toList)).1 =
        .ok (root, rest) →
      root.attribute? metadataNamespace "Class" = some className → ';' ∉ className.value.toList →
      ¬Marked (trimmed className.value) → (scan text).1 = .ok (some set) →
        set.fullClass = trimmed className.value := by
  refine ⟨?_, ?_, ?_⟩
  · intro name module hname hmodule a b c d ha hb hc hd
    refine ⟨?_, ?_, ?_⟩
    · exact Declaration.parse_namespaceSegment_moduleSegment ha hname hb hc hmodule hd
    · exact Declaration.parse_moduleSegment_namespaceSegment ha hname hb hc hmodule hd
    · exact Declaration.parse_namespaceSegment ha hname hb
  · intro type hnamespace hname hdot hmark hstarts hends hne
    exact Declaration.parse_fullName type hnamespace hname hdot hmark hstarts hends hne
  · intro text root rest className set hroot hclass hsemicolon hmark hscan
    have htags := scanFeed_of_class _ hroot hclass
    rw [← scan_of_feed rfl, hscan] at htags
    obtain ⟨decl, -, hdecl, htype, hnamespace, -, -, -⟩ := scanClassTags_eq_ok htags.symm
    exact fullClass_of_parse hsemicolon hmark hdecl htype hnamespace

/-- A label with a class that has blanks around it and dots at its start and next to each other. -/
def dottedClassText : String :=
  "<Label xmlns:x='http://schemas.microsoft.com/winfx/2006/xaml' x:Class=' .A..B '/>"

/-- The start tag in `dottedClassText`. -/
def dottedClassRoot : StartTag :=
  ⟨⟨"Label", "Label", ""⟩,
    [⟨⟨"xmlns:x", "x", declarationNamespace⟩, metadataNamespace⟩,
      ⟨⟨"x:Class", "Class", metadataNamespace⟩, " .A..B "⟩], true⟩

theorem dottedClassText_feed :
    NodeFeed.ofText dottedClassText.toList = .node ⟨0, 0⟩ (.element dottedClassRoot)
      (.finished ⟨81, 0⟩) := by
  unfold dottedClassText
  rw [String.toList_ofList, NodeFeed.ofText_eq]
  decide +kernel

/-- A padded namespace with its module, the page of the showcase, and a class with dots in odd
places. -/
theorem names_read_back_dotted :
    Declaration.parse " clr-namespace:Kiln.Sample.Widgets ;\tassembly=Kiln.Sample" =
        .ok ⟨some "Kiln.Sample.Widgets", none, some "Kiln.Sample"⟩ ∧
      Declaration.parse Showcase.customPage.fullName = .ok ⟨some "Kiln.Sample",
        some "CustomPage", none⟩ ∧
      ∃ set, (scan dottedClassText).1 = .ok (some set) ∧ set.fullClass = ".A..B" := by
  obtain ⟨hsegments, hfullName, hclass⟩ := names_read_back
  refine ⟨?_, ?_, ⟨some ".A.", "B", []⟩, ?_, ?_⟩
  · have hwidgets : SegmentName "Kiln.Sample.Widgets" :=
      ⟨by decide, by decide, by simp [EndsTight, isBlank]⟩
    have hsample : SegmentName "Kiln.Sample" := ⟨by decide, by decide, by simp [EndsTight, isBlank]⟩
    have hspace : IsPadding " " := by simp [IsPadding, isBlank]
    have htab : IsPadding "\t" := by simp [IsPadding, isBlank]
    have hnone : IsPadding "" := by simp [IsPadding]
    exact (hsegments hwidgets hsample hspace hspace htab hnone).1
  · have hwritten : Showcase.customPage.fullName = "Kiln.Sample.CustomPage" := by decide
    exact hfullName Showcase.customPage.toTypeDecl (by decide) (by decide) (by decide)
      (by rw [hwritten]; unfold Marked; decide) (by rw [hwritten]; simp [StartsTight, isBlank])
      (by rw [hwritten]; simp [EndsTight, isBlank]) (by decide)
  · rw [scan_of_feed dottedClassText_feed]
    rfl
  · have hroot : (findRoot (Position.ofOffset? dottedClassText.toList)
        (NodeFeed.ofText dottedClassText.toList)).1 = .ok (dottedClassRoot, .finished ⟨81, 0⟩) := by
      rw [dottedClassText_feed]
      rfl
    rw [hclass dottedClassText dottedClassRoot _ _ _ hroot rfl (by decide)
      (by unfold Marked; decide +kernel) (by rw [scan_of_feed dottedClassText_feed]; rfl)]
    decide +kernel

end MarkupForms.Accessors
