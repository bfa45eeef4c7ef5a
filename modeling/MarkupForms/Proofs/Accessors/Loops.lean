import MarkupForms.Accessors.Scan
import MarkupForms.Proofs.Hydration.Loops

/-!
# The scan as loops

A scan is two loops on one cursor: the first one stops at the root, the second one takes the
elements behind it until the document ends. Neither has a bound of its own. Like the loops that
build objects they end because every node takes up at least one byte.

With that, reading ends however it is done (`reading_ends`): each call before the end moves the
reader on, and neither a load nor a scan makes more successful calls than the text has bytes, and
one.
-/

namespace MarkupForms.Accessors

open Markup Hydration

/-! ## The loops -/

section Loops

/- The position of an offset in the document. -/
variable (position : Nat → Option Position)

/-- Reads up to the start tag of the root. -/
def readRoot : (rounds : Nat) → Loop Unit ScanError StartTag
  | 0 => .exhausted
  | rounds + 1 => do
    let node ← Loop.nextNode (scanFault position)
    match node with
    | none => .fail .noRoot
    | some (.element tag) => pure tag
    | some (.endElement _) | some (.text _) | some .blank => readRoot rounds

/-- Reads the elements up to the end of the document. -/
def readFields (classNamespace : Option String) : (rounds : Nat) → (fields : OrderedMap Field) →
    Loop Unit ScanError (OrderedMap Field)
  | 0, _ => .exhausted
  | rounds + 1, fields => do
    let node ← Loop.nextNode (scanFault position)
    match node with
    | none => pure fields
    | some (.element tag) =>
      match (addElement classNamespace fields tag).1 with
      | .error error => .fail error
      | .ok more => readFields classNamespace rounds more
    | some (.endElement _) | some (.text _) | some .blank => readFields classNamespace rounds fields

/-- Reads what is behind a root that declares the class `text`. -/
def readClass (rounds : Nat) (text : String) : Loop Unit ScanError (Option AccessorSet) :=
  match Declaration.parse text with
  | .error fault => .fail (.markup (.declaration text fault))
  | .ok decl =>
    match decl.typeName with
    | none => .fail (.invalidClass text)
    | some className => do
      let fields ← readFields position decl.namespaceName rounds .empty
      match collision? .empty fields.values with
      | some error => .fail error
      | none => pure (some ⟨decl.namespaceName, className, fields.values⟩)

/-- Reads a whole document. -/
def readAccessors (rounds : Nat) : Loop Unit ScanError (Option AccessorSet) := do
  let root ← readRoot position rounds
  match root.attribute? metadataNamespace "Class" with
  | none => pure none
  | some className => readClass position rounds className.value

end Loops

/-- A scan by loops of no more than `rounds` rounds: what it comes to, and how many calls of the
cursor succeeded. -/
def scanWithin (rounds : Nat) (text : String) :
    Option (Except ScanError (Option AccessorSet) × Nat) :=
  (readAccessors (Position.ofOffset? text.toList) rounds (.ofText text.toList ())).map
      fun (result, last) =>
    (result, last.reads)

/-! ## What they come to -/

section Reading

variable (position : Nat → Option Position) {text : List Char} {rounds : Nat} {s : LoopState Unit}

theorem exists_notes {α : Type} {scanned : Scanned α} {result : Except ScanError α}
    (h : scanned.1 = result) :
    ∃ notes, scanned = (result, notes) :=
  ⟨scanned.2, Prod.ext h rfl⟩

/-- What the first loop comes to in front of a feed: a root, and behind it the feed that is left. -/
def FindsRoot (position : Nat → Option Position) (text : List Char) (feed : NodeFeed) :
    Except ScanError StartTag → LoopState Unit → Prop
  | .ok root, last => last.Within text 0 ∧ (findRoot position feed).1 = .ok (root, last.cursor.feed)
  | .error error, last => last.Within text 1 ∧ (findRoot position feed).1 = .error error

theorem readRoot_follows (hs : s.Within text 0) (hrounds : s.unread < rounds) :
    (readRoot position rounds).Ends s (FindsRoot position text s.cursor.feed) := by
  induction rounds generalizing s with
  | zero => exact absurd hrounds (Nat.not_lt_zero _)
  | succ rounds ih =>
    rw [readRoot]
    refine Loop.ends_nextNode_bind hs (fun node behind hfeed hbehind hless _ => ?_)
      (fun behind hfeed hbehind _ => ?_) fun fault behind hfeed hbehind _ => ?_
    · rw [hfeed]
      have hagain := ih hbehind (Nat.lt_of_lt_of_le hless (Nat.le_of_lt_succ hrounds))
      match node with
      | .element tag => exact Loop.ends_done ⟨hbehind, rfl⟩
      | .endElement _ => exact hagain
      | .text _ => exact hagain
      | .blank => exact hagain
    · rw [hfeed]
      exact Loop.ends_fail ⟨hbehind, rfl⟩
    · rw [hfeed]
      exact ⟨hbehind, rfl⟩

theorem readFields_follows (classNamespace : Option String) (fields : OrderedMap Field)
    (hs : s.Within text 0) (hrounds : s.unread < rounds) :
    (readFields position classNamespace rounds fields).Ends s fun result last =>
      last.Within text 1 ∧ (collectFields position classNamespace fields s.cursor.feed).1 =
        result := by
  induction rounds generalizing s fields with
  | zero => exact absurd hrounds (Nat.not_lt_zero _)
  | succ rounds ih =>
    rw [readFields]
    refine Loop.ends_nextNode_bind hs (fun node behind hfeed hbehind hless _ => ?_)
      (fun behind hfeed hbehind _ => ?_) fun fault behind hfeed hbehind _ => ?_
    · rw [hfeed]
      have hagain :=
        fun fields => ih fields hbehind (Nat.lt_of_lt_of_le hless (Nat.le_of_lt_succ hrounds))
      match node with
      | .element tag =>
        rcases hadd : addElement classNamespace fields tag with ⟨error | more, notes⟩
        · simp only [collectFields, hadd]
          exact Loop.ends_fail ⟨hbehind.spare_one, rfl⟩
        · simp only [collectFields, hadd]
          exact hagain more
      | .endElement _ => exact hagain fields
      | .text _ => exact hagain fields
      | .blank => exact hagain fields
    · rw [hfeed]
      exact Loop.ends_done ⟨hbehind, rfl⟩
    · rw [hfeed]
      exact ⟨hbehind, rfl⟩

theorem readClass_follows (declared : String) (hs : s.Within text 0) (hrounds : s.unread < rounds) :
    (readClass position rounds declared).Ends s fun result last =>
      last.Within text 1 ∧ (scanClass position declared s.cursor.feed).1 = result := by
  rw [readClass, scanClass]
  cases Declaration.parse declared with
  | error fault => exact Loop.ends_fail ⟨hs.spare_one, rfl⟩
  | ok decl =>
    dsimp only
    cases decl.typeName with
    | none => exact Loop.ends_fail ⟨hs.spare_one, rfl⟩
    | some className =>
      refine (readFields_follows position decl.namespaceName .empty hs hrounds).bind
        (fun fields last hfields => ?_)
        fun error last herror => ?_
      · obtain ⟨notes, hcollect⟩ := exists_notes hfields.2
        simp only [hcollect]
        cases collision? .empty fields.values with
        | some error => exact Loop.ends_fail ⟨hfields.1, rfl⟩
        | none => exact Loop.ends_done ⟨hfields.1, rfl⟩
      · obtain ⟨notes, hcollect⟩ := exists_notes herror.2
        rw [hcollect]
        exact ⟨herror.1, rfl⟩

/-- A document of any shape is read as it is scanned. -/
theorem readAccessors_follows (hs : s.Within text 0) (hrounds : text.length < rounds) :
    (readAccessors position rounds).Ends s fun result last =>
      last.Within text 1 ∧ (scanFeed position s.cursor.feed).1 = result := by
  have henough : ∀ {s : LoopState Unit}, s.Within text 0 → s.unread < rounds :=
    fun hwithin => Nat.lt_of_le_of_lt hwithin.unread_le hrounds
  rw [readAccessors, scanFeed]
  refine (readRoot_follows position hs (henough hs)).bind (fun root last hroot => ?_)
    fun error last herror => ?_
  · obtain ⟨hlast, hfound⟩ := hroot
    obtain ⟨notes, hfind⟩ := exists_notes hfound
    rw [hfind]
    cases hclass : root.attribute? metadataNamespace "Class" with
    | none => exact Loop.ends_done ⟨hlast.spare_one, by simp only [hclass]; rfl⟩
    | some className =>
      simp only [hclass]
      exact readClass_follows position className.value hlast (henough hlast)
  · obtain ⟨notes, hfind⟩ := exists_notes herror.2
    rw [hfind]
    exact ⟨herror.1, rfl⟩

end Reading

/-- With more rounds than the text has bytes, the loops scan it. -/
theorem scanWithin_eq (text : String) {rounds : Nat} (hrounds : text.utf8ByteSize < rounds) :
    ∃ reads ≤ text.utf8ByteSize + 1, scanWithin rounds text = some ((scan text).1, reads) := by
  have hstart := LoopState.within_ofText text.toList ()
  obtain ⟨result, last, hloops, hwithin, hscan⟩ :=
    readAccessors_follows (Position.ofOffset? text.toList) hstart
    (Nat.lt_of_le_of_lt (Reader.length_rest_ofText_le text) hrounds)
  refine ⟨last.reads, hwithin.reads_le_utf8ByteSize, ?_⟩
  rw [scanWithin, hloops, ← hscan]
  rfl

/-! ## Reading ends -/

/-- **Reading ends.** On every text, a call that finds a node has moved the reader on by at least
one byte from where any call before it left it, and no reader is behind the end. So the loops that
load a document, and those that scan it, end within a number of rounds that only the size of the
text bounds, also when they report an error; they come to what `load` and `scan` come to; and no
more of their calls succeed than the text has bytes, and one. -/
theorem reading_ends (text : String) :
    let after := (Cursor.ofText text.toList).behind
    (∀ calls, (after calls).reader.offset ≤ text.utf8ByteSize ∧
      ∀ node, (after calls).next.1 = .ok (some node) → ∀ earlier ≤ calls,
        (after earlier).reader.offset + 1 ≤ (after (calls + 1)).reader.offset) ∧
    (∀ (request : LoadRequest) (rounds : Nat), text.utf8ByteSize < rounds →
      ∃ reads ≤ text.utf8ByteSize + 1, request.loadWithin rounds text = some (request.load text,
        reads)) ∧
    ∀ rounds, text.utf8ByteSize < rounds →
      ∃ reads ≤ text.utf8ByteSize + 1, scanWithin rounds text = some ((scan text).1, reads) := by
  intro after
  have hstart : (Cursor.ofText text.toList).reader.StandsIn (Reader.ofText text.toList).rest :=
    Reader.standsIn_ofText text.toList
  refine ⟨fun calls => ⟨?_, fun node hnode earlier hearlier => ?_⟩,
    fun request rounds hrounds => ?_,
    fun rounds hrounds => ?_⟩
  · exact (Cursor.standsIn_behind hstart calls).offset_le
  · exact Cursor.offset_behind_lt hstart hnode hearlier
  · exact request.loadWithin_eq text hrounds
  · exact scanWithin_eq text hrounds

/-- A document whose only element never ends. -/
def unclosedText : String := "<Label>"

theorem reading_ends_unclosedText :
    let request : LoadRequest := ⟨.empty, Forms.catalog, none, none⟩
    ((Cursor.ofText unclosedText.toList).next.1 =
      .ok (some (.element ⟨⟨"Label", "Label", ""⟩, [], false⟩)) ∧
        (Cursor.ofText unclosedText.toList).reader.offset + 1 ≤
          ((Cursor.ofText unclosedText.toList).behind 1).reader.offset) ∧
      unclosedText.utf8ByteSize < 8 ∧
      (∃ reads ≤ unclosedText.utf8ByteSize + 1,
        request.loadWithin 8 unclosedText = some (request.load unclosedText, reads)) ∧
      ∃ reads ≤ unclosedText.utf8ByteSize + 1, scanWithin 8 unclosedText =
          some ((scan unclosedText).1, reads) := by
  intro request
  have htag : (Cursor.ofText unclosedText.toList).next.1 =
      .ok (some (.element ⟨⟨"Label", "Label", ""⟩, [], false⟩)) := by decide +kernel
  have hsize : unclosedText.utf8ByteSize < 8 := by decide +kernel
  obtain ⟨hcalls, hload, hscan⟩ := reading_ends unclosedText
  exact ⟨⟨htag, (hcalls 0).2 _ htag 0 (Nat.le_refl 0)⟩, hsize, hload request 8 hsize, hscan 8 hsize⟩

/-- The spare call is needed. -/
example : scanWithin 2 "x" = some (.error .noRoot, 2) := by cbv

end MarkupForms.Accessors
