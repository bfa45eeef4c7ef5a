import MarkupForms.Markup.Position
import MarkupForms.Markup.Scope
import MarkupForms.Text.Blank

/-!
# Reading a document node by node

A cursor walks over a document once, skips asides, and keeps the scopes of the open elements. Each
node takes up at least one character (`Cursor.next_length`), so every document has a finite sequence
of nodes, its feed, which ends with the document or with the first fault.
-/

namespace MarkupForms.Markup

/-- Where a node was found: the offset at which it starts, and the number of asides passed over on
the way to it. -/
structure Place where
  start : Nat
  asides : Nat
  deriving Repr, DecidableEq

/-- The next event that is no aside, with its place. -/
def Reader.nextContent (asides : Nat) (r : Reader) : Place × Reading :=
  match _hread : r.next with
  | (.ok .aside, behind) => behind.nextContent (asides + 1)
  | reading => (⟨r.offset, asides⟩, reading)
termination_by r.rest.length
decreasing_by
  have h := @Reader.next_length r .aside (by rw [_hread]) (by simp)
  rwa [_hread] at h

/-- A document on the way: the reader, the scopes of the open elements, innermost first, and the
place of the last node. -/
structure Cursor where
  reader : Reader
  scopes : List Scope
  place : Place
  deriving Repr, DecidableEq

namespace Cursor

/-- The cursor at the start of a document. -/
def ofText (cs : List Char) : Cursor :=
  ⟨Reader.ofText cs, [], ⟨0, 0⟩⟩

/-- A run of text: white space is told apart after references were expanded. -/
def textNode (raw : List Char) : Except NodeFault (Option Node) :=
  match unescape raw with
  | .error fault => .error (.badText fault)
  | .ok content =>
    .ok (some (if Text.isAllBlank content then .blank else .text (String.ofList content)))

/-- The node that an event stands for, none at the end, and the scopes behind it. A tag that closes
itself takes one scope away even if it could not be opened. -/
def nodeOf (scopes : List Scope) : Event → Except NodeFault (Option Node) × List Scope
  | .startTag content =>
    let (tag, inner) := openTag scopes content false
    (tag.map (some ∘ .element), inner)
  | .emptyTag content =>
    let (tag, inner) := openTag scopes content true
    (tag.map (some ∘ .element), inner.tail)
  | .endTag name => (.ok (some (.endElement (String.ofList name))), scopes.tail)
  | .text raw => (textNode raw, scopes)
  | .characterData body => (.ok (some (.text (String.ofList body))), scopes)
  | .aside => (.ok none, scopes)
  | .finished => (.ok none, scopes)

/-- The next node, none at the end, or what is wrong there, and the cursor behind it. -/
def next (c : Cursor) : Except NodeFault (Option Node) × Cursor :=
  match c.reader.nextContent 0 with
  | (place, .error fault, reader) => (.error (.unreadable fault), ⟨reader, c.scopes, place⟩)
  | (place, .ok event, reader) =>
    let (node, scopes) := nodeOf c.scopes event
    (node, ⟨reader, scopes, place⟩)

/-- The position of the last node in the text that the cursor was made from. Offsets leave out a
byte order mark, so behind one they may be inside a character. -/
def position? (c : Cursor) (source : List Char) : Option Position :=
  Position.ofOffset? source c.place.start

end Cursor

/-- What a call of a cursor ends with. -/
inductive Reply where
  /-- The next node, none at the end. -/
  | node (node : Option Node)
  /-- A fault with the position at which it is reported. -/
  | refused (fault : NodeFault) (position : Position)
  /-- A fault without a position to report it at: the program breaks off. -/
  | aborted
  deriving Repr, DecidableEq

/-- A call of a cursor on the text that it was made from. -/
def Cursor.reply (c : Cursor) (source : List Char) : Reply × Cursor :=
  match c.next with
  | (.ok node, behind) => (.node node, behind)
  | (.error fault, behind) =>
    match behind.position? source with
    | some position => (.refused fault position, behind)
    | none => (.aborted, behind)

/-! ## Every node takes up room -/

theorem Reader.nextContent_length {asides : Nat} {r : Reader} {event : Event}
    (h : (r.nextContent asides).2.1 = .ok event) (hne : event ≠ .finished) :
    (r.nextContent asides).2.2.rest.length < r.rest.length := by
  fun_induction r.nextContent asides with
  | case1 asides r behind hread ih =>
    have := @Reader.next_length r .aside (by rw [hread]) (by simp)
    rw [hread] at this
    exact Nat.lt_trans (ih h) this
  | case2 asides r hother => exact Reader.next_length h hne

theorem Cursor.next_length {c behind : Cursor} {node : Node}
    (h : c.next = (.ok (some node), behind)) :
    behind.reader.rest.length < c.reader.rest.length := by
  unfold Cursor.next at h
  split at h
  · simp at h
  · next place event reader hread =>
    have hlength := @Reader.nextContent_length 0 c.reader event
      (by rw [hread])
    rw [hread] at hlength
    simp only [Prod.mk.injEq] at h
    obtain ⟨hnode, rfl⟩ := h
    apply hlength
    rintro rfl
    simp [Cursor.nodeOf] at hnode

/-! ## The feed -/

/-- The nodes of a document in order, up to its end or to the first fault. -/
inductive NodeFeed where
  | node (place : Place) (node : Node) (rest : NodeFeed)
  | fault (place : Place) (fault : NodeFault)
  | finished (place : Place)
  deriving Repr

/-- The nodes that a cursor has before it. -/
def Cursor.feed (c : Cursor) : NodeFeed :=
  match _hnext : c.next with
  | (.ok (some node), behind) => .node behind.place node behind.feed
  | (.ok none, behind) => .finished behind.place
  | (.error fault, behind) => .fault behind.place fault
termination_by c.reader.rest.length
decreasing_by exact Cursor.next_length _hnext

/-- The nodes of a document. -/
def NodeFeed.ofText (cs : List Char) : NodeFeed :=
  (Cursor.ofText cs).feed

end MarkupForms.Markup
