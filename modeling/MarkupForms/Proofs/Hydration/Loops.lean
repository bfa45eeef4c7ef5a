import MarkupForms.Proofs.Hydration.Streaming
import MarkupForms.Proofs.Markup.Loops

/-!
# Hydration as loops that call each other

Instead of keeping what is open on a stack, a document can be read by loops that call each other:
one for the contents of an element, one for the value of a property element, and each element inside
starts a loop of its own on the same cursor. No loop has a bound of its own, and some of them call
another one before they have read anything.

They end all the same, since the rounds of all of them together are not more than the nodes, and
each does its part of the assembly (`loops_follow`). So a load takes no more successful calls of the
cursor than the text has bytes, and one for its end (`LoadRequest.loadWithin_eq`).
-/

namespace MarkupForms.Hydration

open Markup

/-! ## The loops -/

section Loops

/- The position of an offset in the document. -/
variable (position : Nat → Option Position)

/-- The error that a fault of the document is reported as. -/
def reportFault (place : Place) (fault : NodeFault) : MarkupError :=
  (StructuralFault.node fault).at (position place.start)

/-- A complaint about the shape of the document. -/
def misshapenLoop {α : Type} (fault : ShapeFault) (start : Nat) : Loop Pass MarkupError α :=
  .fail (misshapen position fault start)

/-- Reads the element of a start tag into an object: resolves the type, finds the object and applies
the attributes; then `contents` reads what is inside unless the tag closes itself. -/
def readObject (contents : OpenElement → Loop Pass MarkupError Unit) (object : Option ObjectId)
    (tag : StartTag) (start : Nat) : Loop Pass MarkupError ObjectId := do
  let element ← Loop.working fun p => openElement position p object tag start
  if tag.selfClosing then pure element.object
  else do
    contents element
    pure element.object

mutual

/-- Reads the contents of an element and its end tag. -/
def readContents : (rounds : Nat) → (element : OpenElement) → Loop Pass MarkupError Unit
  | 0, _ => .exhausted
  | rounds + 1, element => do
    let node ← Loop.nextNode (reportFault position)
    let start ← Loop.start
    match node with
    | none => misshapenLoop position (.endInside element.tag.name.written) start
    | some (.endElement _) => pure ()
    | some (.text _) | some .blank => readContents rounds element
    | some (.element child) =>
      match position start with
      | none => .fail .aborted
      | some _ =>
        if child.isPropertyElement then
          match namedProperty? element.tag child with
          | none =>
            misshapenLoop position
              (.foreignProperty child.name.written element.tag.name.written) start
          | some property =>
            if child.selfClosing then
              misshapenLoop position (.emptyProperty child.name.written) start
            else do
              let value ← readValue rounds child none
              Loop.working fun p => assignProperty position p element property start value
              readContents rounds element
        else do
          let object ← readObject position (readContents rounds) none child start
          Loop.working fun p => insertObject position p element start object
          readContents rounds element

/-- Reads the contents of the property element `tag` and its end tag, behind the value found so
far. -/
def readValue : (rounds : Nat) → (tag : StartTag) → (found : Option RawValue) →
    Loop Pass MarkupError RawValue
  | 0, _, _ => .exhausted
  | rounds + 1, tag, found => do
    let node ← Loop.nextNode (reportFault position)
    let start ← Loop.start
    match node with
    | none => misshapenLoop position (.endInside tag.name.written) start
    | some (.endElement _) =>
      match found with
      | some value => pure value
      | none => misshapenLoop position (.emptyProperty tag.name.written) start
    | some .blank => readValue rounds tag found
    | some (.text content) =>
      match found with
      | some _ => misshapenLoop position (.repeatedValue tag.name.written) start
      | none => readValue rounds tag (some (.text (Text.trimmed content)))
    | some (.element child) =>
      match found with
      | some _ => misshapenLoop position (.repeatedValue tag.name.written) start
      | none =>
        if child.isPropertyElement then
          misshapenLoop position (.nestedProperty child.name.written tag.name.written) start
        else do
          let object ← readObject position (readContents rounds) none child start
          readValue rounds tag (some (.object object))

end

/-- Reads up to the start tag of the root. -/
def readProlog : (rounds : Nat) → Loop Pass MarkupError (StartTag × Nat)
  | 0 => .exhausted
  | rounds + 1 => do
    let node ← Loop.nextNode (reportFault position)
    let start ← Loop.start
    match node with
    | none => misshapenLoop position .noRoot start
    | some (.endElement written) => misshapenLoop position (.endBeforeRoot written) start
    | some (.text _) | some .blank => readProlog rounds
    | some (.element tag) => pure (tag, start)

/-- Reads what is behind the root. -/
def readEpilog : (rounds : Nat) → Loop Pass MarkupError Unit
  | 0 => .exhausted
  | rounds + 1 => do
    let node ← Loop.nextNode (reportFault position)
    let start ← Loop.start
    match node with
    | none => pure ()
    | some .blank => readEpilog rounds
    | some _ => misshapenLoop position .contentBehindRoot start

/-- Reads a whole document, its root into the given object or into a new one. -/
def readDocument (rounds : Nat) (root : Option ObjectId) : Loop Pass MarkupError ObjectId := do
  let (tag, start) ← readProlog position rounds
  let object ← readObject position (readContents position rounds) root tag start
  readEpilog position rounds
  pure object

/-! ## What loops come to -/

namespace Outcome

variable {α β : Type}

/-- Goes on with a value and the pass behind it, or stops with an error. -/
def andThen (outcome : Outcome α) (next : α → Pass → Outcome β) : Outcome β :=
  match outcome with
  | (.ok value, p) => next value p
  | (.error error, p) => (.error error, p)

theorem goOn_andThen (outcome : Outcome α) (next : α → Pass → Outcome Stage) (rest : NodeFeed) :
    (outcome.andThen next).goOn position rest = outcome.andThen fun value p =>
      (next value p).goOn position rest := by
  rcases outcome with ⟨error | value, p⟩ <;> rfl

end Outcome

/-- A loop does its part of an assembly that comes to `before`: behind its value, `after` says what
is to come; an error is that of the assembly. It leaves no more than `bound` characters unread. -/
def Follows {α : Type} (text : List Char) (spare bound : Nat) (before : Outcome ObjectId)
    (after : α → LoopState Pass → Outcome ObjectId) : Except MarkupError α → LoopState Pass → Prop
  | .ok value, last => last.Within text spare ∧ last.unread ≤ bound ∧ before = after value last
  | .error error, last => last.Within text 1 ∧ before = (.error error, last.work)

section Following

variable {position} {α β : Type} {text : List Char} {spare bound : Nat} {s : LoopState Pass}
  {before : Outcome ObjectId} {after : α → LoopState Pass → Outcome ObjectId}

theorem ends_follows_le {loop : Loop Pass MarkupError α} {less : Nat}
    (h : loop.Ends s (Follows text spare less before after)) (hless : less ≤ bound) :
    loop.Ends s (Follows text spare bound before after) := by
  refine h.mono fun result last hfollows => ?_
  match result with
  | .ok value => exact ⟨hfollows.1, Nat.le_trans hfollows.2.1 hless, hfollows.2.2⟩
  | .error error => exact hfollows

/-- Of two loops, the second one does what the first one leaves. -/
theorem ends_bind_follows {loop : Loop Pass MarkupError β} {next : β → Loop Pass MarkupError α}
    {between : β → LoopState Pass → Outcome ObjectId}
    (h : loop.Ends s (Follows text 0 bound before between))
    (hnext : ∀ value (last : LoopState Pass), last.Within text 0 → last.unread ≤ bound →
      (next value).Ends last (Follows text spare bound (between value last) after)) :
    (loop >>= next).Ends s (Follows text spare bound before after) := by
  refine h.bind (fun value last hvalue => ?_) fun error last herror => herror
  obtain ⟨hwithin, hunread, rfl⟩ := hvalue
  exact hnext value last hwithin hunread

/-- Work without reading leaves the account as it is. -/
theorem ends_working_follows {f : Pass → Outcome β} {next : β → Loop Pass MarkupError α}
    {between : β → Pass → Outcome ObjectId} (hs : s.Within text 0)
    (hnext : ∀ value p, f s.work = (.ok value, p) →
      (next value).Ends { s with work := p } (Follows text spare bound (between value p) after)) :
    (Loop.working f >>= next).Ends s (Follows text spare bound
        ((f s.work).andThen between) after) := by
  rcases hf : f s.work with ⟨error | value, p⟩
  · have hloop : Loop.working f s = some (.error error, { s with work := p }) := by
      rw [Loop.working, hf]
    exact Loop.ends_bind_of_error hloop ⟨hs.spare_one.working p, rfl⟩
  · have hloop : Loop.working f s = some (.ok value, { s with work := p }) := by
      rw [Loop.working, hf]
    exact Loop.ends_bind_of_ok hloop (hnext value p hf)

theorem ends_fail_follows {error : MarkupError} (hs : s.Within text 1) :
    (Loop.fail error).Ends s (Follows text spare bound (.error error, s.work) after) :=
  Loop.ends_fail ⟨hs, rfl⟩

/-- **One round**: the node is the one that the assembly takes from this stage, and the offset is
where it starts. -/
theorem ends_round {next : Option Node → Nat → Loop Pass MarkupError α} (stage : Stage)
    (hs : s.Within text 0) (hnode : ∀ node start (behind : LoopState Pass), behind.Within text 0 →
      behind.unread < s.unread → (next (some node) start).Ends behind (Follows text spare bound
        ((step position behind.work stage start node).goOn position behind.cursor.feed) after))
    (hend : ∀ start (behind : LoopState Pass), behind.Within text 1 →
      (next none start).Ends behind (Follows text spare bound (finish position stage start,
        behind.work) after)) :
    (Loop.nextNode (reportFault position) >>= fun node => Loop.start >>= next node).Ends s
      (Follows text spare bound (assemble position s.work stage s.cursor.feed) after) := by
  refine Loop.ends_nextNode_bind hs (fun node behind hfeed hwithin hunread hwork => ?_)
    (fun behind hfeed hwithin hwork => ?_) fun fault behind hfeed hwithin hwork => ?_
  · rw [hfeed, assemble_node, ← hwork]
    exact Loop.ends_bind_of_ok rfl (hnode node _ behind hwithin hunread)
  · rw [hfeed, assemble, ← hwork]
    exact Loop.ends_bind_of_ok rfl (hend _ behind hwithin)
  · rw [hfeed, assemble, ← hwork]
    exact ⟨hwithin, rfl⟩

end Following

/-! ## Elements and their contents -/

/-- A loop for contents does its part: behind it the element has ended, whatever is around the
element. -/
def ContentsFollow (text : List Char) (bound : Nat)
    (contents : OpenElement → Loop Pass MarkupError Unit) : Prop :=
  ∀ (element : OpenElement) (outer : List OpenElement) (s : LoopState Pass), element.property =
    none → s.Within text 0 → s.unread ≤ bound →
    (contents element).Ends s (Follows text 0 bound
      (assemble position s.work (.content element outer) s.cursor.feed)
      fun _ last => (deliver position last.work element.object element.start outer).goOn position
        last.cursor.feed)

/-- A loop for a value does its part: behind it the property element has ended, and the value is
still to be assigned. -/
def ValueFollows (text : List Char) (bound : Nat)
    (contents : StartTag → Option RawValue → Loop Pass MarkupError RawValue) : Prop :=
  ∀ (parent : OpenElement) (tag : StartTag) (property : String) (start : Nat)
    (found : Option RawValue)
    (outer : List OpenElement) (s : LoopState Pass), parent.property = none → s.Within text 0 →
    s.unread ≤ bound → (contents tag found).Ends s (Follows text 0 bound
      (assemble position s.work (.content (parent.within tag property start found) outer)
        s.cursor.feed)
      fun value last => (assignProperty position last.work parent property start value).andThen
          fun _ p =>
        assemble position p (.content parent outer) last.cursor.feed)

section Reading

variable {position} {text : List Char} {bound rounds : Nat}

/-- The start of an element, step by step. -/
theorem startElement_eq_andThen (p : Pass) (object : Option ObjectId) (tag : StartTag) (start : Nat)
    (outer : List OpenElement) :
    startElement position p object tag start outer =
      (openElement position p object tag start).andThen
      fun element p => if tag.selfClosing then closeElement position p element outer
        else (.ok (.content element outer), p) := by
  rw [startElement]
  rcases openElement position p object tag start with ⟨error | element, after⟩ <;> rfl

/-- An element is read into the object that is then handed over to what is around it. -/
theorem readObject_follows {contents : OpenElement → Loop Pass MarkupError Unit}
    (hcontents : ContentsFollow position text bound contents) (object : Option ObjectId)
    (tag : StartTag) (start : Nat) (outer : List OpenElement) {s : LoopState Pass}
    (hs : s.Within text 0) (hbound : s.unread ≤ bound) :
    (readObject position contents object tag start).Ends s (Follows text 0 bound
      ((startElement position s.work object tag start outer).goOn position s.cursor.feed)
      fun object last => (deliver position last.work object start outer).goOn position
        last.cursor.feed) := by
  rw [startElement_eq_andThen, Outcome.goOn_andThen, readObject]
  refine ends_working_follows hs fun element p hopen => ?_
  obtain ⟨type, resolved, taken, made, -, -, -, rfl⟩ := openElement_eq_ok hopen
  cases hclosing : tag.selfClosing with
  | true =>
    simp only [if_true, closeElement_eq_deliver]
    exact Loop.ends_done ⟨hs.working p, hbound, rfl⟩
  | false =>
    simp only [Bool.false_eq_true, if_false]
    refine ends_bind_follows (hcontents _ outer _ rfl (hs.working p) hbound)
      fun _ last hwithin hunread => ?_
    exact Loop.ends_done ⟨hwithin, hunread, rfl⟩

/-- The object of a child is inserted, and then the contents of the parent go on. -/
theorem goOn_deliver_child (p : Pass) (object : ObjectId) (start : Nat) (parent : OpenElement)
    (outer : List OpenElement) (rest : NodeFeed) (hparent : parent.property = none) :
    (deliver position p object start (parent :: outer)).goOn position rest =
      (insertObject position p parent start object).andThen fun _ p =>
        assemble position p (.content parent outer) rest := by
  simp only [deliver, hparent]
  rcases insertObject position p parent start object with ⟨error | ⟨⟩, after⟩ <;> rfl

/-- The value of a property element is assigned at its end, and then the contents of the parent go
on. -/
theorem goOn_endProperty (p : Pass) (parent : OpenElement) (outer : List OpenElement)
    (tag : StartTag) (property : String) (start behind : Nat) (value : RawValue) (written : String)
    (rest : NodeFeed) (hparent : parent.property = none) :
    (step position p (.content (parent.within tag property start (some value)) outer) behind
        (.endElement written)).goOn position rest =
      (assignProperty position p parent property start value).andThen fun _ p =>
        assemble position p (.content parent outer) rest := by
  have hclosed := parent.property_none_within tag property start (some value) hparent
  simp only [step, stepProperty, OpenElement.within, assignProperty]
  cases p.assign parent.object parent.type property value with
  | error error => rfl
  | ok next =>
    exact congrArg (fun element => assemble position next (.content element outer) rest) hclosed

/-- A round in the contents of an element, if the rounds that are left are enough for what is unread
behind it. -/
theorem readContents_round
    (hcontents : ∀ less < rounds, ContentsFollow position text less (readContents position rounds))
    (hvalue : ∀ less < rounds, ValueFollows position text less (readValue position rounds))
    (hrounds : bound ≤ rounds) :
    ContentsFollow position text bound (readContents position (rounds + 1)) := by
  intro element outer s hclosed hs hbound
  rw [readContents]
  refine ends_round (.content element outer) hs (fun node start behind hbehind hless => ?_)
    fun start behind hbehind => ?_
  · have hfew : behind.unread < bound := Nat.lt_of_lt_of_le hless hbound
    have hleft : behind.unread < rounds := Nat.lt_of_lt_of_le hfew hrounds
    -- the loop goes on behind whatever was read
    have hagain : ∀ last : LoopState Pass, last.Within text 0 → last.unread ≤ behind.unread →
        (readContents position rounds element).Ends last (Follows text 0 behind.unread
          (assemble position last.work (.content element outer) last.cursor.feed)
          fun _ last =>
            (deliver position last.work element.object element.start outer).goOn position
                last.cursor.feed) :=
      fun last => hcontents _ hleft element outer last hclosed
    refine ends_follows_le ?_ (Nat.le_of_lt hfew)
    simp only [step, hclosed]
    match node with
    | .endElement _ =>
      simp only [stepElement, closeElement_eq_deliver]
      exact Loop.ends_done ⟨hbehind, Nat.le_refl _, rfl⟩
    | .text _ => exact hagain behind hbehind (Nat.le_refl _)
    | .blank => exact hagain behind hbehind (Nat.le_refl _)
    | .element child =>
      simp only [stepElement]
      cases position start with
      | none => exact ends_fail_follows hbehind.spare_one
      | some here =>
      dsimp only
      by_cases hdotted : child.isPropertyElement = true
      · simp only [if_pos hdotted, startProperty]
        cases namedProperty? element.tag child with
        | none => exact ends_fail_follows hbehind.spare_one
        | some property =>
          by_cases hclosing : child.selfClosing = true
          · simp only [if_pos hclosing]
            exact ends_fail_follows hbehind.spare_one
          · simp only [if_neg hclosing]
            -- the property element is read to its end, then its value is assigned
            refine ends_bind_follows (hvalue _ hleft element child property start none outer behind
              hclosed hbehind (Nat.le_refl _)) fun value last hlast hunread => ?_
            exact ends_working_follows hlast fun _ p _ => hagain _ (hlast.working p) hunread
      · simp only [if_neg hdotted]
        refine ends_bind_follows (readObject_follows (hcontents _ hleft) none child start
          (element :: outer) hbehind (Nat.le_refl _)) fun object last hlast hunread => ?_
        rw [goOn_deliver_child _ _ _ _ _ _ hclosed]
        exact ends_working_follows hlast fun _ p _ => hagain _ (hlast.working p) hunread
  · simp only [finish, hclosed]
    exact ends_fail_follows hbehind

/-- A round in a property element. -/
theorem readValue_round
    (hcontents : ∀ less < rounds, ContentsFollow position text less (readContents position rounds))
    (hvalue : ∀ less < rounds, ValueFollows position text less (readValue position rounds))
    (hrounds : bound ≤ rounds) :
    ValueFollows position text bound (readValue position (rounds + 1)) := by
  intro parent tag property start found outer s hparent hs hbound
  rw [readValue]
  refine ends_round (.content (parent.within tag property start found) outer) hs
    (fun node offset behind hbehind hless => ?_) fun offset behind hbehind => ?_
  · have hfew : behind.unread < bound := Nat.lt_of_lt_of_le hless hbound
    have hleft : behind.unread < rounds := Nat.lt_of_lt_of_le hfew hrounds
    have hagain : ∀ (found : Option RawValue) (last : LoopState Pass), last.Within text 0 →
        last.unread ≤ behind.unread →
        (readValue position rounds tag found).Ends last (Follows text 0 behind.unread
          (assemble position last.work (.content (parent.within tag property start found) outer)
            last.cursor.feed)
          fun value last => (assignProperty position last.work parent property start value).andThen
              fun _ p =>
            assemble position p (.content parent outer) last.cursor.feed) :=
      fun found last => hvalue _ hleft parent tag property start found outer last hparent
    refine ends_follows_le ?_ (Nat.le_of_lt hfew)
    match node, found with
    | .endElement written, some value =>
      rw [goOn_endProperty _ _ _ _ _ _ _ _ _ _ hparent]
      exact Loop.ends_done ⟨hbehind, Nat.le_refl _, rfl⟩
    | .endElement _, none => exact ends_fail_follows hbehind.spare_one
    | .blank, found => exact hagain found behind hbehind (Nat.le_refl _)
    | .text _, some _ => exact ends_fail_follows hbehind.spare_one
    | .text content, none =>
      exact hagain (some (.text (Text.trimmed content))) behind hbehind (Nat.le_refl _)
    | .element child, some _ => exact ends_fail_follows hbehind.spare_one
    | .element child, none =>
      simp only [step, OpenElement.within, stepProperty]
      by_cases hdotted : child.isPropertyElement = true
      · simp only [if_pos hdotted]
        exact ends_fail_follows hbehind.spare_one
      · simp only [if_neg hdotted]
        -- the object of the child is the value, and nothing is inserted
        refine ends_bind_follows (readObject_follows (hcontents _ hleft) none child offset
          (parent.within tag property start none :: outer) hbehind (Nat.le_refl _))
          fun object last hlast hunread => ?_
        exact hagain (some (.object object)) last hlast hunread
  · exact ends_fail_follows hbehind

/-- **Loops and assembly.** With more rounds than there are unread characters, every loop ends, and
it does its part of the assembly. -/
theorem loops_follow (rounds : Nat) :
    (∀ bound < rounds, ContentsFollow position text bound (readContents position rounds)) ∧
      ∀ bound < rounds, ValueFollows position text bound (readValue position rounds) := by
  induction rounds with
  | zero =>
    exact ⟨fun _ hbound => absurd hbound (Nat.not_lt_zero _),
      fun _ hbound => absurd hbound (Nat.not_lt_zero _)⟩
  | succ rounds ih =>
    exact ⟨fun _ hbound => readContents_round ih.1 ih.2 (Nat.le_of_lt_succ hbound),
      fun _ hbound => readValue_round ih.1 ih.2 (Nat.le_of_lt_succ hbound)⟩

/-! ## Whole documents -/

theorem readProlog_follows (root : Option ObjectId) {s : LoopState Pass} (hs : s.Within text 0)
    (hrounds : s.unread < rounds) :
    (readProlog position rounds).Ends s (Follows text 0 text.length
      (assemble position s.work (.prolog root) s.cursor.feed)
      fun found last => (startElement position last.work root found.1 found.2 []).goOn position
        last.cursor.feed) := by
  induction rounds generalizing s with
  | zero => exact absurd hrounds (Nat.not_lt_zero _)
  | succ rounds ih =>
    rw [readProlog]
    refine ends_round (.prolog root) hs (fun node start behind hbehind hless => ?_)
        fun start behind hbehind =>
      ends_fail_follows hbehind
    have hleft : behind.unread < rounds := Nat.lt_of_lt_of_le hless (Nat.le_of_lt_succ hrounds)
    match node with
    | .endElement _ => exact ends_fail_follows hbehind.spare_one
    | .text _ => exact ih hbehind hleft
    | .blank => exact ih hbehind hleft
    | .element tag => exact Loop.ends_done ⟨hbehind, hbehind.unread_le, rfl⟩

/-- Here the spare call is made. -/
theorem readEpilog_follows (root : ObjectId) {s : LoopState Pass} (hs : s.Within text 0)
    (hrounds : s.unread < rounds) :
    (readEpilog position rounds).Ends s (Follows text 1 text.length
      (assemble position s.work (.epilog root) s.cursor.feed) fun _ last =>
        (.ok root, last.work)) := by
  induction rounds generalizing s with
  | zero => exact absurd hrounds (Nat.not_lt_zero _)
  | succ rounds ih =>
    rw [readEpilog]
    refine ends_round (.epilog root) hs (fun node start behind hbehind hless => ?_)
        fun start behind hbehind =>
      Loop.ends_done ⟨hbehind, hbehind.unread_le, rfl⟩
    have hleft : behind.unread < rounds := Nat.lt_of_lt_of_le hless (Nat.le_of_lt_succ hrounds)
    match node with
    | .endElement _ => exact ends_fail_follows hbehind.spare_one
    | .text _ => exact ends_fail_follows hbehind.spare_one
    | .element _ => exact ends_fail_follows hbehind.spare_one
    | .blank => exact ih hbehind hleft

variable (position) in
/-- A document of any shape is read as it is assembled. -/
theorem readDocument_follows (root : Option ObjectId) {s : LoopState Pass} (hs : s.Within text 0)
    (hrounds : text.length < rounds) :
    (readDocument position rounds root).Ends s (Follows text 1 text.length
      (assemble position s.work (.prolog root) s.cursor.feed) fun object last =>
        (.ok object, last.work)) := by
  have henough : ∀ {s : LoopState Pass}, s.Within text 0 → s.unread < rounds :=
    fun hwithin => Nat.lt_of_le_of_lt hwithin.unread_le hrounds
  have hcontents : ContentsFollow position text text.length (readContents position rounds) :=
    (loops_follow rounds).1 text.length hrounds
  rw [readDocument]
  refine ends_bind_follows (readProlog_follows root hs (henough hs)) fun found last hlast _ => ?_
  refine ends_bind_follows (readObject_follows hcontents root found.1 found.2 [] hlast
    hlast.unread_le)
    fun object last hlast _ => ?_
  refine (readEpilog_follows object hlast (henough hlast)).bind (fun _ last hend => ?_)
    fun error last hend => hend
  exact Loop.ends_done hend

end Reading

end Loops

/-- A load by loops of no more than `rounds` rounds: what it comes to, and how many calls of the
cursor succeeded. -/
def LoadRequest.loadWithin (request : LoadRequest) (rounds : Nat) (text : String) :
    Option ((Except MarkupError ObjectId × Graph) × Nat) :=
  let source := text.toList
  (readDocument (Position.ofOffset? source) rounds request.root (.ofText source request.pass)).map
  fun (root, last) =>
    ((root, last.work.graph), last.reads)

/-- With more rounds than the text has bytes, the loops load it. -/
theorem LoadRequest.loadWithin_eq (request : LoadRequest) (text : String) {rounds : Nat}
    (hrounds : text.utf8ByteSize < rounds) :
    ∃ reads ≤ text.utf8ByteSize + 1, request.loadWithin rounds text = some (request.load text,
      reads) := by
  have hstart := LoopState.within_ofText text.toList request.pass
  obtain ⟨result, last, hloops, hfollows⟩ := readDocument_follows (Position.ofOffset? text.toList)
    request.root hstart (Nat.lt_of_le_of_lt (Reader.length_rest_ofText_le text) hrounds)
  have hresult : last.Within (Reader.ofText text.toList).rest 1 ∧
      assemble (Position.ofOffset? text.toList)
      request.pass (.prolog request.root) (NodeFeed.ofText text.toList) = (result, last.work) := by
    cases result with
    | ok object => exact ⟨hfollows.1, hfollows.2.2⟩
    | error error => exact hfollows
  refine ⟨last.reads, hresult.1.reads_le_utf8ByteSize, ?_⟩
  rw [loadWithin, hloops, request.load_of_feed rfl, hresult.2]
  rfl

end MarkupForms.Hydration
