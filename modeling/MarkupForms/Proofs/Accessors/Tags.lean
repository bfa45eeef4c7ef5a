import MarkupForms.Proofs.Accessors.Scan
import MarkupForms.Proofs.Markup.Position

/-!
# A scan sees start tags only

Apart from a fault at its end, all that a scan takes from a document is the list of its start tags:
the first one is the root, the others may be fields. End tags, text and white space have no say, and
neither has the place at which anything stands, except in the position of the fault.

`scanTags` is the scan of such a list, and `scanFeed_eq` says that every scan is one. A scan breaks
off only where that fault has no position, so not in a document without a byte order mark
(`marked_of_scanBreaksOff`).
-/

namespace MarkupForms

open Markup

/-- The fault that a feed ends with, and its place. -/
def Markup.NodeFeed.fault? : NodeFeed → Option (Place × NodeFault)
  | .node _ _ rest => rest.fault?
  | .fault place cause => some (place, cause)
  | .finished _ => none

namespace Accessors

/-! ## Scanning tags -/

section Ending

/- The error at the end, if there is one. -/
variable (ending : Option ScanError)

/-- The fields of all tags, added to those there are. -/
def collectTags (classNamespace : Option String) (fields : OrderedMap Field) :
    List StartTag → Except ScanError (OrderedMap Field)
  | [] =>
    match ending with
    | some error => .error error
    | none => .ok fields
  | tag :: tags =>
    match (addElement classNamespace fields tag).1 with
    | .error error => .error error
    | .ok more => collectTags classNamespace more tags

/-- The accessors of a document with the given class and these tags behind its root. -/
def scanClassTags (text : String) (tags : List StartTag) : Except ScanError (Option AccessorSet) :=
  match Declaration.parse text with
  | .error fault => .error (.markup (.declaration text fault))
  | .ok decl =>
    match decl.typeName with
    | none => .error (.invalidClass text)
    | some className =>
      match collectTags ending decl.namespaceName .empty tags with
      | .error error => .error error
      | .ok fields =>
        match collision? .empty fields.values with
        | some error => .error error
        | none => .ok (some ⟨decl.namespaceName, className, fields.values⟩)

/-- The accessors of a document with these tags. -/
def scanTags : List StartTag → Except ScanError (Option AccessorSet)
  | [] => .error (ending.getD .noRoot)
  | root :: behind =>
    match root.attribute? metadataNamespace "Class" with
    | none => .ok none
    | some className => scanClassTags ending className.value behind

end Ending

/-- What is behind accessors: a class that names a type, a walk that succeeds, and no collision. -/
theorem scanClassTags_eq_ok {ending : Option ScanError} {text : String} {tags : List StartTag}
    {set : AccessorSet} (h : scanClassTags ending text tags = .ok (some set)) :
    ∃ decl fields, Declaration.parse text = .ok decl ∧ decl.typeName = some set.className ∧
      decl.namespaceName = set.namespaceName ∧
      collectTags ending decl.namespaceName .empty tags = .ok fields ∧
      collision? .empty fields.values = none ∧ set.fields = fields.values := by
  unfold scanClassTags at h
  cases hdecl : Declaration.parse text with
  | error fault =>
    rw [hdecl] at h
    cases h
  | ok decl =>
    cases htype : decl.typeName with
    | none =>
      simp only [hdecl, htype] at h
      cases h
    | some className =>
      cases hcollect : collectTags ending decl.namespaceName .empty tags with
      | error error =>
        simp only [hdecl, htype, hcollect] at h
        cases h
      | ok fields =>
        cases hcollision : collision? .empty fields.values with
        | some error =>
          simp only [hdecl, htype, hcollect, hcollision] at h
          cases h
        | none =>
          simp only [hdecl, htype, hcollect, hcollision] at h
          cases h
          exact ⟨decl, fields, rfl, htype, rfl, hcollect, hcollision, rfl⟩

/-! ## Every scan is one of tags -/

section Scanning

/- The position of an offset in the document. -/
variable (position : Nat → Option Position)

/-- The error that a scan meets at the end of a feed. -/
def endingOf (feed : NodeFeed) : Option ScanError :=
  feed.fault?.map fun found => scanFault position found.1 found.2

theorem findRoot_cases (feed : NodeFeed) :
    feed.tags = [] ∧ (findRoot position feed).1 = .error ((endingOf position feed).getD .noRoot) ∨
      ∃ root rest, (findRoot position feed).1 = .ok (root, rest) ∧ feed.tags = root :: rest.tags ∧
        feed.fault? = rest.fault? := by
  induction feed with
  | fault place fault => exact Or.inl ⟨rfl, rfl⟩
  | finished place => exact Or.inl ⟨rfl, rfl⟩
  | node place node rest ih =>
    cases node with
    | element tag => exact Or.inr ⟨tag, rest, rfl, rfl, rfl⟩
    | endElement written => exact ih
    | text content => exact ih
    | blank => exact ih

theorem collectFields_eq (classNamespace : Option String) (fields : OrderedMap Field)
    (feed : NodeFeed) :
    (collectFields position classNamespace fields feed).1 =
      collectTags (endingOf position feed) classNamespace fields feed.tags := by
  induction feed generalizing fields with
  | fault place fault => rfl
  | finished place => rfl
  | node place node rest ih =>
    cases node with
    | endElement written => exact ih fields
    | text content => exact ih fields
    | blank => exact ih fields
    | element tag =>
      show (collectFields position classNamespace fields (.node place (.element tag) rest)).1 =
        collectTags (endingOf position rest) classNamespace fields (tag :: rest.tags)
      rw [collectFields, collectTags]
      rcases addElement classNamespace fields tag with ⟨error | more, notes⟩
      · rfl
      · exact ih more

theorem scanClass_eq (text : String) (rest : NodeFeed) :
    (scanClass position text rest).1 = scanClassTags (endingOf position rest) text rest.tags := by
  unfold scanClass scanClassTags
  cases Declaration.parse text with
  | error fault => rfl
  | ok decl =>
    cases htype : decl.typeName with
    | none => simp only [htype]
    | some className =>
      simp only [htype]
      rw [← collectFields_eq]
      rcases collectFields position decl.namespaceName .empty rest with ⟨error | fields, notes⟩
      · rfl
      · dsimp only
        cases collision? .empty fields.values <;> rfl

/-- A scan of a document whose root declares a class. -/
theorem scanFeed_of_class {feed rest : NodeFeed} {root : StartTag} {className : Attribute}
    (hroot : (findRoot position feed).1 = .ok (root, rest))
    (hclass : root.attribute? metadataNamespace "Class" = some className) :
    (scanFeed position feed).1 = scanClassTags (endingOf position rest) className.value
      rest.tags := by
  rcases hfind : findRoot position feed with ⟨result, notes⟩
  rw [hfind] at hroot
  cases hroot
  unfold scanFeed
  rw [hfind]
  simp only [hclass]
  exact scanClass_eq position className.value rest

/-- **A scan sees start tags only**, and the fault at the end. -/
theorem scanFeed_eq (feed : NodeFeed) :
    (scanFeed position feed).1 = scanTags (endingOf position feed) feed.tags := by
  unfold scanFeed
  rcases findRoot_cases position feed with ⟨htags, hroot⟩ | ⟨root, rest, hroot, htags, hfault⟩
  · rcases hfind : findRoot position feed with ⟨result, notes⟩
    rw [hfind] at hroot
    cases hroot
    rw [htags]
    rfl
  · rcases hfind : findRoot position feed with ⟨result, notes⟩
    rw [hfind] at hroot
    cases hroot
    have hending : endingOf position feed = endingOf position rest := by
      rw [endingOf, hfault, endingOf]
    rw [htags, hending, scanTags]
    cases hclass : root.attribute? metadataNamespace "Class" with
    | none => simp only [hclass]; rfl
    | some className =>
      simp only [hclass]
      exact scanClass_eq position className.value rest

end Scanning

/-- The accessors of a text are those of its tags. -/
theorem scan_eq (text : String) :
    (scan text).1 =
      scanTags (endingOf (Position.ofOffset? text.toList) (NodeFeed.ofText text.toList))
        (NodeFeed.ofText text.toList).tags :=
  scanFeed_eq (Position.ofOffset? text.toList) (NodeFeed.ofText text.toList)

/-! ## Scans that break off -/

theorem addElement_ne_aborted (classNamespace : Option String) (fields : OrderedMap Field)
    (tag : StartTag) :
    (addElement classNamespace fields tag).1 ≠ .error (.markup .aborted) := by
  intro h
  unfold addElement at h
  split at h
  · cases h
  · split at h
    · cases h
    · next id _ =>
      cases hfield : fieldOf classNamespace tag id with
      | ok field =>
        rw [hfield] at h
        cases h
      | error error =>
        rw [hfield] at h
        cases h
        unfold fieldOf at hfield
        split at hfield
        · cases hfield
        · split at hfield <;> cases hfield

section Ending

variable {ending : Option ScanError}

theorem collectTags_aborted {classNamespace : Option String} {fields : OrderedMap Field}
    {tags : List StartTag}
    (h : collectTags ending classNamespace fields tags = .error (.markup .aborted)) :
    ending = some (.markup .aborted) := by
  induction tags generalizing fields with
  | nil =>
    cases ending with
    | none => cases h
    | some error =>
      cases h
      rfl
  | cons tag tags ih =>
    rw [collectTags] at h
    cases hadd : (addElement classNamespace fields tag).1 with
    | ok more =>
      rw [hadd] at h
      exact ih h
    | error error =>
      rw [hadd] at h
      cases h
      exact absurd hadd (addElement_ne_aborted classNamespace fields tag)

theorem collision?_ne_aborted (seen : OrderedMap String) (fields : List Field) :
    collision? seen fields ≠ some (.markup .aborted) := by
  induction fields generalizing seen with
  | nil => nofun
  | cons field fields ih =>
    rw [collision?]
    cases seen.get? field.name with
    | some first => nofun
    | none => exact ih _

theorem scanClassTags_aborted {text : String} {tags : List StartTag}
    (h : scanClassTags ending text tags = .error (.markup .aborted)) :
    ending = some (.markup .aborted) := by
  unfold scanClassTags at h
  split at h
  · cases h
  · split at h
    · cases h
    · split at h
      · next error hcollect =>
        cases h
        exact collectTags_aborted hcollect
      · next fields _ =>
        split at h
        · next error hcollision =>
          cases h
          exact absurd hcollision (collision?_ne_aborted _ _)
        · cases h

theorem scanTags_aborted {tags : List StartTag}
    (h : scanTags ending tags = .error (.markup .aborted)) :
    ending = some (.markup .aborted) := by
  cases tags with
  | nil =>
    cases ending with
    | none => cases h
    | some error =>
      cases h
      rfl
  | cons root behind =>
    rw [scanTags] at h
    split at h
    · cases h
    · exact scanClassTags_aborted h

end Ending

/-- The fault at the end of a feed has a position if all nodes have. -/
theorem endingOf_ne_aborted {position : Nat → Option Position} {feed : NodeFeed}
    (h : feed.Positioned position) : endingOf position feed ≠ some (.markup .aborted) := by
  induction feed with
  | node place node rest ih => exact ih h.2
  | finished place => nofun
  | fault place fault =>
    obtain ⟨p, hp⟩ := Option.isSome_iff_exists.1 h
    show some (scanFault position place fault) ≠ _
    rw [scanFault, hp]
    nofun

/-- The scan breaks off: it asks for the position of a fault, and there is none. -/
def ScanBreaksOff (text : String) : Prop :=
  (scan text).1 = .error (.markup .aborted)

/-- **Only behind a byte order mark does a scan break off.** -/
theorem marked_of_scanBreaksOff {text : String} (h : ScanBreaksOff text) :
    text.toList.head? = some '\ufeff' := by
  by_contra hmark
  rw [ScanBreaksOff, scan_eq] at h
  exact endingOf_ne_aborted (NodeFeed.positioned_ofText hmark) (scanTags_aborted h)

end Accessors

end MarkupForms
