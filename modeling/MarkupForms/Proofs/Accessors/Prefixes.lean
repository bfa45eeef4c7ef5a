import MarkupForms.Proofs.Accessors.Tags
import MarkupForms.Proofs.Hydration.Comparison
import MarkupForms.Proofs.Hydration.Evaluation
import MarkupForms.Proofs.Hydration.Unbroken

/-!
# Prefixes do not matter

Two documents whose nodes are alike, in whatever prefixes they are written, are read into the same
graph and have the same accessors, or are refused for reasons of the same kind. Nothing is ever
compared with a name as it is written: tags, keys, ids and classes are known by namespace and local
name.

This is about a document once it is at hand. To find the markup of a type, the texts of a module are
searched for `x:Class` as it is written (`Resource.declaresClass`).
-/

namespace MarkupForms

open Markup Hydration

namespace Accessors

/-- What an error of a scan is about, without names and positions. -/
inductive ScanErrorKind where
  | noRoot
  | invalidClass
  | invalidId
  | fieldCollision
  | markup (kind : ErrorKind)
  deriving Repr, DecidableEq

/-- The kind of an error. -/
def ScanError.kind : ScanError → ScanErrorKind
  | .noRoot => .noRoot
  | .invalidClass _ => .invalidClass
  | .invalidId _ => .invalidId
  | .fieldCollision _ _ _ => .fieldCollision
  | .markup error => .markup error.kind

/-! ## Tags that are alike -/

section Tags

variable {a b : StartTag} (h : a.Alike b)

include h in
theorem elementId?_alike : elementId? a = elementId? b := by
  unfold elementId?
  rw [Option.map_or, Option.map_or, h.attribute? "" "Id" (by decide),
    h.attribute? metadataNamespace "Id" (by decide)]

include h in
theorem typePath_alike (classNamespace : Option String) :
    typePath classNamespace a.name = typePath classNamespace b.name := by
  unfold typePath
  rw [h.name.uri, h.name.localName]

include h in
theorem addElement_alike (classNamespace : Option String) (fields : OrderedMap Field) :
    addElement classNamespace fields a = addElement classNamespace fields b := by
  have hfield : ∀ id, fieldOf classNamespace a id = fieldOf classNamespace b id := by
    intro id
    unfold fieldOf
    rw [typePath_alike h, h.name.uri]
  unfold addElement
  rw [h.isPropertyElement, elementId?_alike h]
  simp only [hfield]

end Tags

/-! ## Scans of tags that are alike -/

/-- Errors of the same kind, unless one of the two scans has broken off. -/
def ScanError.Agrees (first second : ScanError) : Prop :=
  second.kind = first.kind ∨ first = .markup .aborted ∨ second = .markup .aborted

/-- Scans with the same result, or with errors that agree. -/
inductive ScansAgree {α : Type} : Except ScanError α → Except ScanError α → Prop where
  | ok (result : α) : ScansAgree (.ok result) (.ok result)
  | error {first second : ScanError} (h : first.Agrees second) :
      ScansAgree (.error first) (.error second)

theorem ScansAgree.refl {α : Type} (outcome : Except ScanError α) : ScansAgree outcome outcome := by
  cases outcome with
  | ok result => exact .ok result
  | error error => exact .error (Or.inl rfl)

/-- Scans that agree, and of which none has broken off, are equal up to what is shown of an
error. -/
theorem ScansAgree.mapError_kind {α : Type} {first second : Except ScanError α}
    (h : ScansAgree first second) (hfirst : first ≠ .error (.markup .aborted))
    (hsecond : second ≠ .error (.markup .aborted)) :
    second.mapError ScanError.kind = first.mapError ScanError.kind := by
  cases h with
  | ok result => rfl
  | error h =>
    rcases h with hkind | rfl | rfl
    · exact congrArg Except.error hkind
    · exact absurd rfl hfirst
    · exact absurd rfl hsecond

section Scans

variable {ending other : Option ScanError} (hending : Option.Rel ScanError.Agrees ending other)
  {as bs : List StartTag}

include hending in
theorem collectTags_alike (htags : List.Forall₂ StartTag.Alike as bs)
    (classNamespace : Option String) (fields : OrderedMap Field) :
    ScansAgree (collectTags ending classNamespace fields as)
      (collectTags other classNamespace fields bs) := by
  induction htags generalizing fields with
  | nil =>
    cases hending with
    | none => exact .refl _
    | some h => exact .error h
  | @cons a b as bs hab _ ih =>
    rw [collectTags, collectTags, addElement_alike hab]
    cases (addElement classNamespace fields b).1 with
    | error error => exact .refl _
    | ok more => exact ih more

include hending in
theorem scanClassTags_alike (text : String) (htags : List.Forall₂ StartTag.Alike as bs) :
    ScansAgree (scanClassTags ending text as) (scanClassTags other text bs) := by
  unfold scanClassTags
  cases Declaration.parse text with
  | error fault => exact .refl _
  | ok decl =>
    cases htype : decl.typeName with
    | none =>
      simp only [htype]
      exact .refl _
    | some className =>
      simp only [htype]
      have hcollect := collectTags_alike hending htags decl.namespaceName .empty
      generalize collectTags ending decl.namespaceName .empty as = collected at hcollect ⊢
      generalize collectTags other decl.namespaceName .empty bs = recollected at hcollect ⊢
      cases hcollect with
      | ok fields => exact .refl _
      | error h => exact .error h

include hending in
/-- **Spelling changes no scan.** -/
theorem scanTags_alike (htags : List.Forall₂ StartTag.Alike as bs) :
    ScansAgree (scanTags ending as) (scanTags other bs) := by
  cases htags with
  | nil =>
    cases hending with
    | none => exact .refl _
    | some h => exact .error h
  | @cons root second as bs hroot hbehind =>
    have hclass := hroot.attribute? metadataNamespace "Class" (by decide)
    rw [scanTags, scanTags]
    cases hfirst : root.attribute? metadataNamespace "Class" with
    | none =>
      rw [hfirst] at hclass
      rw [Option.map_eq_none_iff.1 hclass.symm]
      exact .refl _
    | some className =>
      rw [hfirst] at hclass
      obtain ⟨otherName, hsecond, hvalue⟩ := Option.map_eq_some_iff.1 hclass.symm
      rw [hsecond]
      dsimp only
      rw [hvalue]
      exact scanClassTags_alike hending className.value hbehind

end Scans

/-- Faults of nodes are structural errors, except where there is no position. -/
theorem scanFault_agrees (first second : Nat → Option Position) (placeA placeB : Place)
    (a b : NodeFault) :
    (scanFault first placeA a).Agrees (scanFault second placeB b) := by
  unfold scanFault
  cases first placeA.start with
  | none => exact Or.inr (Or.inl rfl)
  | some here =>
    cases second placeB.start with
    | none => exact Or.inr (Or.inr rfl)
    | some there => exact Or.inl rfl

/-- Feeds that both end with a fault, or both without one, end in the same way. -/
theorem endingOf_agrees (first second : Nat → Option Position) {f g : NodeFeed}
    (h : f.fault?.isSome = g.fault?.isSome) :
    Option.Rel ScanError.Agrees (endingOf first f) (endingOf second g) := by
  unfold endingOf
  cases hf : f.fault? with
  | none =>
    cases hg : g.fault? with
    | none => exact .none
    | some other => rw [hf, hg] at h; cases h
  | some fault =>
    cases hg : g.fault? with
    | none => rw [hf, hg] at h; cases h
    | some other => exact .some (scanFault_agrees first second _ _ _ _)

theorem fault?_alike {f g : NodeFeed} (h : f.Alike g) : f.fault?.isSome = g.fault?.isSome := by
  induction h with
  | node _ _ _ _ ih => exact ih
  | fault _ _ _ _ => rfl
  | finished _ _ => rfl

end Accessors

namespace Hydration

/-- **Spelling changes no load** that comes to an end: same result or errors of the same kind, and
the same graph. -/
theorem load_alike (request : LoadRequest) {text other : String}
    (h : (NodeFeed.ofText text.toList).Alike (NodeFeed.ofText other.toList))
    (htext : ¬ request.BreaksOff text) (hother : ¬ request.BreaksOff other) :
    (request.load other).1.mapError MarkupError.kind =
      (request.load text).1.mapError MarkupError.kind ∧
      (request.load other).2 = (request.load text).2 := by
  obtain ⟨first, second, hfollows, hfirst, hsecond⟩ :=
    Comparison.sameResolver.load request request rfl rfl rfl h
      (Comparison.sameResolver_same text other)
  rw [LoadRequest.BreaksOff, hfirst] at htext
  rw [LoadRequest.BreaksOff, hsecond] at hother
  rw [hfirst, hsecond]
  exact hfollows.mapError_kind id htext hother

end Hydration

namespace Accessors

/-- A document without a byte order mark is read to its end. -/
theorem unbroken_of_unmarked {text : String} (h : text.toList.head? ≠ some '\ufeff') :
    (∀ request : LoadRequest, ¬ request.BreaksOff text) ∧ ¬ ScanBreaksOff text :=
  ⟨fun _ hbreaks => h (LoadRequest.marked_of_breaksOff hbreaks),
    fun hbreaks => h (marked_of_scanBreaksOff hbreaks)⟩

/-- An attribute with the given name is recognised for what markup metadata says: as a key, as an
id, and as what is looked for under its local name. -/
structure Recognised (name : ExpandedName) (localName : String) : Prop where
  key : localName = "Key" → Pass.roleOf name = .key
  id : localName = "Id" → Pass.roleOf name = .property "Id"
  found (tag : StartTag) (value : String) :
    ⟨name, value⟩ ∈ tag.attributes → (tag.attribute? metadataNamespace localName).isSome

theorem recognised (written localName : String) :
    Recognised ⟨written, localName, metadataNamespace⟩ localName where
  key h := by
    subst h
    rfl
  id h := by
    subst h
    rfl
  found tag value hmem := by
    rw [StartTag.attribute?, List.find?_isSome]
    exact ⟨_, hmem, by simp⟩

/-- **Only namespaces and local names matter**, as long as both documents are read to their ends.
Let the nodes of two texts be alike but for the names as written and the declarations of prefixes.
Then whatever request they are read for, if neither load breaks off, both are read to the same root
or both are refused for reasons of the same kind, and the graph is the same afterwards. If neither
scan breaks off, they have the same accessors or none for reasons of the same kind. Nothing breaks
off in a text without a byte order mark. And wherever a prefix stands for the namespace of markup
metadata, an attribute with that prefix is recognised by its local name. -/
theorem prefixes_do_not_matter {text other : String}
    (h : (NodeFeed.ofText text.toList).Alike (NodeFeed.ofText other.toList)) :
    (∀ request : LoadRequest, ¬ request.BreaksOff text → ¬ request.BreaksOff other →
        (request.load other).1.mapError MarkupError.kind =
          (request.load text).1.mapError MarkupError.kind ∧
          (request.load other).2 = (request.load text).2) ∧
      (¬ ScanBreaksOff text → ¬ ScanBreaksOff other →
        (scan other).1.mapError ScanError.kind = (scan text).1.mapError ScanError.kind) ∧
      (∀ document ∈ [text, other], document.toList.head? ≠ some '\ufeff' →
        (∀ request : LoadRequest, ¬ request.BreaksOff document) ∧ ¬ ScanBreaksOff document) ∧
      ∀ (scopes : List Scope) (before localName : String), ':' ∉ before.toList →
        namespaceOf scopes before = .ok metadataNamespace →
        ∃ name, attributeName scopes (before ++ ":" ++ localName) = .ok name ∧
        Recognised name localName := by
  refine ⟨fun request => load_alike request h, fun htext hother => ?_,
    fun _ _ hmark => unbroken_of_unmarked hmark,
    fun scopes before localName hcolon hmeans => ?_⟩
  · rw [ScanBreaksOff, scan_eq] at htext hother
    rw [scan_eq, scan_eq]
    exact (scanTags_alike (endingOf_agrees _ _ (fault?_alike h)) h.tags).mapError_kind htext hother
  · exact ⟨_, attributeName_prefixed hcolon hmeans, recognised _ localName⟩

/-- A page with a class and an element with an id, in the given prefixes. -/
def prefixedText (forms metadata : String) : String :=
  "<" ++ forms ++ ":StackLayout xmlns:" ++ forms ++ "='http://kiln.dev/forms' xmlns:" ++ metadata ++
    "='http://schemas.microsoft.com/winfx/2006/xaml' " ++ metadata ++ ":Class='A.B'><" ++ forms ++
      ":Label " ++
    metadata ++ ":Id='a'/></" ++ forms ++ ":StackLayout>"

/-- The nodes of such a page, found at the given offsets. -/
def prefixedFeed (forms metadata : String) (inner behind finish : Nat) : NodeFeed :=
  .node ⟨0, 0⟩
    (.element ⟨⟨forms ++ ":StackLayout", "StackLayout", frameworkNamespace⟩,
      [⟨⟨"xmlns:" ++ forms, forms, declarationNamespace⟩, frameworkNamespace⟩,
        ⟨⟨"xmlns:" ++ metadata, metadata, declarationNamespace⟩, metadataNamespace⟩,
        ⟨⟨metadata ++ ":Class", "Class", metadataNamespace⟩, "A.B"⟩], false⟩) <|
  .node ⟨inner, 0⟩
    (.element ⟨⟨forms ++ ":Label", "Label", frameworkNamespace⟩,
      [⟨⟨metadata ++ ":Id", "Id", metadataNamespace⟩, "a"⟩], true⟩) <|
  .node ⟨behind, 0⟩ (.endElement (forms ++ ":StackLayout")) <|
  .finished ⟨finish, 0⟩

/-- Whatever the prefixes are, the nodes are alike. -/
theorem prefixedFeed_alike (forms metadata otherForms otherMetadata : String)
    (inner behind finish otherInner otherBehind otherFinish : Nat) :
    (prefixedFeed forms metadata inner behind finish).Alike
      (prefixedFeed otherForms otherMetadata otherInner otherBehind otherFinish) := by
  refine .node _ _ (.element ⟨⟨rfl, rfl⟩, ?_, rfl⟩) <| .node _ _ (.element ⟨⟨rfl, rfl⟩, ?_, rfl⟩) <|
    .node _ _ (.endElement _ _) <| .finished _ _
  · exact .cons (.declarations rfl rfl) <| .cons (.declarations rfl rfl) <|
      .cons (.same ⟨rfl, rfl⟩ rfl) .nil
  · exact .cons (.same ⟨rfl, rfl⟩ rfl) .nil

theorem prefixedText_feed :
    NodeFeed.ofText (prefixedText "f" "x").toList = prefixedFeed "f" "x" 116 135 151 ∧
      NodeFeed.ofText (prefixedText "ui" "meta").toList = prefixedFeed "ui" "meta" 124 147 164 := by
  refine ⟨?_, ?_⟩
  all_goals
    unfold prefixedText
    iterate 14 rw [String.toList_append]
    iterate 10 rw [String.toList_ofList]
    rw [NodeFeed.ofText_eq]
    decide +kernel

theorem prefixedText_unmarked (forms metadata : String) :
    (prefixedText forms metadata).toList.head? ≠ some '\ufeff' := by
  have hopen : "<".toList.head? = some '<' := rfl
  unfold prefixedText
  iterate 14 rw [String.toList_append]
  simp only [List.head?_append, hopen, Option.some_or]
  decide

/-- Both are read, and both have the same accessors; the second are computed from the first. -/
theorem prefixes_do_not_matter_prefixedText :
    (NodeFeed.ofText (prefixedText "f" "x").toList).Alike
      (NodeFeed.ofText (prefixedText "ui" "meta").toList) ∧
      (LoadRequest.load ⟨.empty, Forms.catalog, none, none⟩ (prefixedText "ui" "meta")).1.mapError
        MarkupError.kind = .ok ⟨0⟩ ∧
      (scan (prefixedText "ui" "meta")).1.mapError ScanError.kind =
        .ok (some ⟨some "A", "B", [⟨"a", "a", "::kiln_model::forms::Label"⟩]⟩) := by
  obtain ⟨hfirst, hsecond⟩ := prefixedText_feed
  have halike : (NodeFeed.ofText (prefixedText "f" "x").toList).Alike
      (NodeFeed.ofText (prefixedText "ui" "meta").toList) := by
    rw [hfirst, hsecond]
    exact prefixedFeed_alike "f" "x" "ui" "meta" _ _ _ _ _ _
  obtain ⟨hload, hscan, hends, -⟩ := prefixes_do_not_matter halike
  obtain ⟨hloadFirst, hscanFirst⟩ :=
    hends (prefixedText "f" "x") (by simp) (prefixedText_unmarked _ _)
  obtain ⟨hloadSecond, hscanSecond⟩ := hends (prefixedText "ui" "meta") (by simp)
    (prefixedText_unmarked _ _)
  refine ⟨halike, ?_, ?_⟩
  · rw [(hload ⟨.empty, Forms.catalog, none, none⟩ (hloadFirst _) (hloadSecond _)).1,
      (LoadRequest.load_of_unmarked hfirst (prefixedText_unmarked _ _)).1]
    rfl
  · rw [hscan hscanFirst hscanSecond, scan_of_feed hfirst]
    rfl

/-- Documents whose nodes are alike do not always end alike. Behind a byte order mark the place of
the label, counted without the mark, is inside the character of two bytes, and the load breaks off;
with a blank in the tag it is between two characters. -/
theorem not_all_alike_end_alike :
    ¬ ∀ text other : String, (NodeFeed.ofText text.toList).Alike (NodeFeed.ofText other.toList) →
      ∀ request : LoadRequest,
        (request.load other).1.mapError MarkupError.kind =
          (request.load text).1.mapError MarkupError.kind := by
  intro law
  obtain ⟨htight, hspaced⟩ := accentedText_feed
  have halike : (NodeFeed.ofText (accentedText "").toList).Alike
      (NodeFeed.ofText (accentedText " ").toList) := by
    rw [htight, hspaced]
    exact .node _ _ (.element (.refl _)) <| .node _ _ (.element (.refl _)) <|
      .node _ _ (.endElement _ _) <| .finished _ _
  have hsame := law _ _ halike ⟨.empty, Forms.catalog, none, none⟩
  rw [LoadRequest.load_of_feed _ htight, LoadRequest.load_of_feed _ hspaced] at hsame
  have hended : (.ok ⟨0⟩ : Except ErrorKind ObjectId) = .error .aborted := hsame
  cases hended

end Accessors

end MarkupForms
