import MarkupForms.Proofs.Markup.Pieces
import MarkupForms.Proofs.Markup.Recovery

/-!
# How far reading has come

A reader counts the bytes that it passes over. Each reading passes over some part of the text and
goes on behind it, or halts there for good (`Reader.Step`); nothing is read twice and nothing is
left out. So offsets never decrease, every event before the end takes up at least one byte, and a
reader always stands between two characters of the text (`Reader.StandsIn`), also behind faults.

The text is what a reader begins with: a byte order mark is passed over before it, and not counted.
-/

namespace MarkupForms.Markup

/-! ## Bytes -/

@[simp] theorem byteLength_nil : byteLength [] = 0 := rfl

@[simp] theorem byteLength_cons (c : Char) (cs : List Char) :
    byteLength (c :: cs) = c.utf8Size + byteLength cs := rfl

@[simp] theorem byteLength_append (cs ds : List Char) :
    byteLength (cs ++ ds) = byteLength cs + byteLength ds := by
  induction cs with
  | nil => rw [List.nil_append, byteLength_nil, Nat.zero_add]
  | cons c cs ih => rw [List.cons_append, byteLength_cons, byteLength_cons, ih, Nat.add_assoc]

theorem length_le_byteLength (cs : List Char) : cs.length ≤ byteLength cs := by
  induction cs with
  | nil => exact Nat.le_refl 0
  | cons c cs ih =>
    have hsize := c.utf8Size_pos
    rw [List.length_cons, byteLength_cons]
    omega

theorem byteLength_pos {cs : List Char} (h : cs ≠ []) : 0 < byteLength cs :=
  Nat.lt_of_lt_of_le (List.length_pos_iff.2 h) (length_le_byteLength cs)

theorem byteLength_eq_utf8ByteSize (cs : List Char) :
    byteLength cs = (String.ofList cs).utf8ByteSize := by
  induction cs with
  | nil => rfl
  | cons c cs ih =>
    have hone : (String.ofList [c]).utf8ByteSize = c.utf8Size := by
      rw [← String.singleton_eq_ofList, String.utf8ByteSize_singleton]
    rw [byteLength_cons, ← List.singleton_append, String.ofList_append, String.utf8ByteSize_append,
      hone, ih]

/-- The bytes of a string are those of its characters. -/
theorem byteLength_toList (text : String) : byteLength text.toList = text.utf8ByteSize := by
  rw [byteLength_eq_utf8ByteSize, String.ofList_toList]

/-- The offset stands between two characters of a text, or at one of its ends. -/
def IsBoundary (text : List Char) (offset : Nat) : Prop :=
  ∃ front back, text = front ++ back ∧ byteLength front = offset

theorem IsBoundary.le_byteLength {text : List Char} {offset : Nat} (h : IsBoundary text offset) :
    offset ≤ byteLength text := by
  obtain ⟨front, back, rfl, rfl⟩ := h
  rw [byteLength_append]
  exact Nat.le_add_right _ _

/-! ## One reading -/

namespace Reader

/-- What comes of a complete piece of markup: reading goes on behind it, or halts there. -/
inductive Settled (next : Reader) : Reading → Prop
  | goesOn (result : Except ReadFault Event) (opened : List (List Char)) :
      Settled next (result, { next with opened := opened })
  | halts (fault : LexicalFault) : Settled next (.error (.lexical fault), next.halt next.offset)

theorem settled_finish {first second : Option Char} {rule : PieceRule}
    (h : pieceRule? first second = some rule) (content : List Char) (next : Reader) :
    next.Settled (rule.finish content next) := by
  rcases pieceRule?_eq_some h with ⟨-, rfl | rfl | rfl⟩ | ⟨-, rfl⟩ | ⟨-, rfl⟩ | ⟨-, -, -, rfl⟩
  · show next.Settled (Reader.comment content next)
    unfold Reader.comment
    split
    · exact .goesOn _ next.opened
    · exact .halts _
  · show next.Settled (Reader.characterData content next)
    unfold Reader.characterData
    split
    · exact .goesOn _ next.opened
    · exact .halts _
  · show next.Settled (Reader.doctype content next)
    unfold Reader.doctype
    split
    · split <;> exact .goesOn _ next.opened
    · exact .halts _
  · show next.Settled (Reader.endTag content next)
    unfold Reader.endTag
    dsimp only
    split
    · exact .goesOn _ next.opened
    · split <;> exact .goesOn _ _
  · show next.Settled (Reader.instruction content next)
    unfold Reader.instruction
    split
    · exact .goesOn _ next.opened
    · exact .halts _
  · show next.Settled (Reader.startTag content next)
    unfold Reader.startTag
    split
    · exact .goesOn _ next.opened
    · exact .goesOn _ _

/-- What one reading does. -/
inductive Step (r : Reader) : Reading → Prop
  /-- It passes over something and goes on behind that. -/
  | goesOn {passed left : List Char} (result : Except ReadFault Event) (opened : List (List Char))
      (hrest : r.rest = passed ++ left) (hsome : passed ≠ []) :
      Step r (result, ⟨left, r.offset + byteLength passed, opened, false⟩)
  /-- It halts, at the end or with a fault. -/
  | halts {passed left : List Char} {result : Except ReadFault Event}
      (hrest : r.rest = passed ++ left) (hend : ∀ event, result = .ok event → event = .finished) :
      Step r (result, ⟨[], r.offset + byteLength passed, r.opened, true⟩)
  /-- It has halted before. -/
  | ended (hhalted : r.halted = true) : Step r (.ok .finished, r)

section Steps

variable {r : Reader}

/-- A reader that goes on behind what it has passed over. -/
theorem step_skipTo {passed left : List Char} (hrunning : r.halted = false)
    (hrest : r.rest = passed ++ left) (hsome : passed ≠ []) (result : Except ReadFault Event)
    (opened : List (List Char)) :
    r.Step (result, { r.skipTo (byteLength passed) left with opened := opened }) := by
  have hgoesOn : r.Step (result, ⟨left, r.offset + byteLength passed, opened, false⟩) :=
    .goesOn result opened hrest hsome
  rwa [← hrunning] at hgoesOn

/-- A piece of markup with its brackets. -/
theorem byteLength_bracketed (content : List Char) :
    byteLength ('<' :: (content ++ ['>'])) = byteLength content + 2 := by
  rw [byteLength_cons, byteLength_append]
  show 1 + (byteLength content + 1) = byteLength content + 2
  omega

theorem step_piece {rule : PieceRule} {cs : List Char} (hrunning : r.halted = false)
    (hrest : r.rest = '<' :: cs) (hrule : pieceRule? cs[0]? cs[1]? = some rule) :
    r.Step (r.piece rule.closes rule.unclosed rule.finish cs) := by
  unfold piece
  cases hcut : cutAtClose rule.closes [] cs with
  | none => exact .halts (List.append_nil r.rest).symm nofun
  | some parts =>
    obtain ⟨content, behind⟩ := parts
    obtain ⟨_, rfl, hcs, -⟩ := cutAtClose_eq_some hcut
    have hpassed : r.rest = '<' :: (content ++ ['>']) ++ behind := by
      rw [hrest, hcs]
      simp
    show r.Step (rule.finish content (r.skipTo (byteLength content + 2) behind))
    have hsettled := settled_finish hrule content (r.skipTo (byteLength content + 2) behind)
    generalize rule.finish content (r.skipTo (byteLength content + 2) behind) =
      reading at hsettled ⊢
    rw [← byteLength_bracketed] at hsettled
    cases hsettled with
    | goesOn result opened =>
      exact step_skipTo hrunning hpassed (List.cons_ne_nil _ _) result opened
    | halts fault => exact .halts hpassed nofun

/-- **What one reading does**, whatever the reader has before it. -/
theorem step_next (r : Reader) : r.Step r.next := by
  unfold next
  split
  · next hhalted => exact .ended hhalted
  · next hrunning =>
    rw [Bool.not_eq_true] at hrunning
    split
    · next hrest =>
      have hnothing : r.rest = [] ++ [] := hrest
      exact .halts hnothing fun event h => (Except.ok.inj h).symm
    · next cs hrest =>
      rw [markup_eq]
      cases hrule : pieceRule? cs[0]? cs[1]? with
      | some rule => exact step_piece hrunning hrest hrule
      | none =>
        have hopening : r.rest = ['<'] ++ cs := hrest
        exact .halts hopening nofun
    · next hnil hmarkup =>
      refine step_skipTo hrunning List.takeWhile_append_dropWhile.symm ?_ _ r.opened
      cases hrest : r.rest with
      | nil => exact absurd hrest hnil
      | cons c cs =>
        have hplain : (c != '<') = true := bne_iff_ne.2 fun heq => hmarkup cs (by rw [hrest, heq])
        rw [List.takeWhile_cons, hplain, if_pos rfl]
        exact List.cons_ne_nil _ _

/-- Offsets never decrease. -/
theorem Step.offset_le {reading : Reading} (h : r.Step reading) : r.offset ≤ reading.2.offset := by
  cases h with
  | goesOn => exact Nat.le_add_right _ _
  | halts => exact Nat.le_add_right _ _
  | ended => exact Nat.le_refl _

/-- Every event before the end takes up at least one byte. -/
theorem Step.offset_lt {reading : Reading} (h : r.Step reading) {event : Event}
    (hevent : reading.1 = .ok event) (hne : event ≠ .finished) : r.offset < reading.2.offset := by
  cases h with
  | goesOn result opened hrest hsome => exact Nat.lt_add_of_pos_right (byteLength_pos hsome)
  | halts hrest hend => exact absurd (hend event hevent) hne
  | ended => exact absurd (Except.ok.inj hevent).symm hne

end Steps

/-! ## Where a reader stands -/

/-- Without a byte order mark all of a text is read. -/
theorem rest_ofText {cs : List Char} (h : cs.head? ≠ some '\ufeff') : (ofText cs).rest = cs := by
  unfold ofText
  split
  · exact absurd rfl h
  · rfl

/-- What is read of a text: all of it apart from a byte order mark. -/
theorem rest_ofText_suffix (cs : List Char) : (ofText cs).rest <:+ cs := by
  unfold ofText
  split
  · exact List.suffix_cons _ _
  · exact List.suffix_refl _

theorem byteLength_rest_ofText_le (text : String) :
    byteLength (ofText text.toList).rest ≤ text.utf8ByteSize := by
  obtain ⟨mark, htext⟩ := rest_ofText_suffix text.toList
  calc byteLength (ofText text.toList).rest
      ≤ byteLength mark + byteLength (ofText text.toList).rest := Nat.le_add_left _ _
    _ = byteLength text.toList := by rw [← byteLength_append, htext]
    _ = text.utf8ByteSize := byteLength_toList text

theorem length_rest_ofText_le (text : String) :
    (ofText text.toList).rest.length ≤ text.utf8ByteSize :=
  Nat.le_trans (length_le_byteLength _) (byteLength_rest_ofText_le text)

/-- The reader stands somewhere in the text: its offset is the length of what is behind it. What is
before it is unread unless the reading has halted. -/
inductive StandsIn (text : List Char) : Reader → Prop
  | running {front back : List Char} (opened : List (List Char)) (htext : text = front ++ back) :
      StandsIn text ⟨back, byteLength front, opened, false⟩
  | halted {front back : List Char} (opened : List (List Char)) (htext : text = front ++ back) :
      StandsIn text ⟨[], byteLength front, opened, true⟩

section Standing

variable {r : Reader} {text : List Char}

theorem StandsIn.isBoundary (h : r.StandsIn text) : IsBoundary text r.offset := by
  cases h with
  | running opened htext => exact ⟨_, _, htext, rfl⟩
  | halted opened htext => exact ⟨_, _, htext, rfl⟩

theorem StandsIn.length_rest_le (h : r.StandsIn text) : r.rest.length ≤ text.length := by
  cases h with
  | running opened htext =>
    rw [htext, List.length_append]
    exact Nat.le_add_left _ _
  | halted => exact Nat.zero_le _

/-- Nothing behind the end is ever reached. -/
theorem StandsIn.offset_le {text : String} (h : r.StandsIn (ofText text.toList).rest) :
    r.offset ≤ text.utf8ByteSize :=
  Nat.le_trans h.isBoundary.le_byteLength (byteLength_rest_ofText_le text)

/-- One reading. -/
theorem StandsIn.step (h : r.StandsIn text) {reading : Reading} (hstep : r.Step reading) :
    reading.2.StandsIn text := by
  cases hstep with
  | ended => exact h
  | goesOn result opened hrest hsome =>
    cases h with
    | running _ htext =>
      subst hrest
      rw [← byteLength_append]
      exact .running opened (by rw [htext, List.append_assoc])
    | halted => exact absurd (List.append_eq_nil_iff.1 hrest.symm).1 hsome
  | halts hrest =>
    cases h with
    | running names htext =>
      subst hrest
      rw [← byteLength_append]
      exact .halted names (by rw [htext, List.append_assoc])
    | halted names htext =>
      rw [(List.append_eq_nil_iff.1 hrest.symm).1, byteLength_nil, Nat.add_zero]
      exact .halted names htext

/-- A document is read from its beginning. -/
theorem standsIn_ofText (cs : List Char) : (ofText cs).StandsIn (ofText cs).rest := by
  have hstart : ∀ text : List Char, StandsIn text ⟨text, byteLength [], [], false⟩ :=
    fun text => .running [] (List.nil_append text).symm
  unfold ofText
  split <;> exact hstart _

end Standing

/-- What asides keep holds of the reader before the next event that is none. -/
theorem nextContent_last {P : Reader → Prop} (hkeep : ∀ r, P r → P r.next.2) (asides : Nat)
    {r : Reader} (hr : P r) :
    ∃ last, P last ∧ (r.nextContent asides).1.start = last.offset ∧
    (r.nextContent asides).2 = last.next := by
  fun_induction r.nextContent asides with
  | case1 asides r behind hread ih =>
    have hbehind := hkeep r hr
    rw [hread] at hbehind
    exact ih hbehind
  | case2 asides r hother => exact ⟨r, hr, rfl, rfl⟩

end Reader

/-! ## Calls of a cursor -/

namespace Cursor

/-- What one call does in a text: it finds a place, not before the reader, between two characters;
and the reader behind it stands in the text, behind the place if a node was found there. -/
structure Passes (text : List Char) (c : Cursor) : Prop where
  stands : c.next.2.reader.StandsIn text
  boundary : IsBoundary text c.next.2.place.start
  start_le : c.reader.offset ≤ c.next.2.place.start
  le_offset : c.next.2.place.start ≤ c.next.2.reader.offset
  node : ∀ node, c.next.1 = .ok (some node) → c.next.2.place.start < c.next.2.reader.offset

variable {text : List Char} {c : Cursor}

theorem place_next (c : Cursor) : c.next.2.place = (c.reader.nextContent 0).1 := by
  unfold next
  rcases c.reader.nextContent 0 with ⟨place, _ | event, reader⟩ <;> rfl

theorem reader_next (c : Cursor) : c.next.2.reader = (c.reader.nextContent 0).2.2 := by
  unfold next
  rcases c.reader.nextContent 0 with ⟨place, _ | event, reader⟩ <;> rfl

/-- A node comes of an event before the end. -/
theorem event_of_node {node : Node} (h : c.next.1 = .ok (some node)) :
    ∃ event, (c.reader.nextContent 0).2.1 = .ok event ∧ event ≠ .finished := by
  unfold next at h
  rcases hread : c.reader.nextContent 0 with ⟨place, fault | event, reader⟩
  · rw [hread] at h
    cases h
  · rw [hread] at h
    refine ⟨event, rfl, ?_⟩
    rintro rfl
    cases h

/-- **One call.** -/
theorem passes (h : c.reader.StandsIn text) : c.Passes text := by
  obtain ⟨last, ⟨hlast, hle⟩, hplace, hread⟩ := Reader.nextContent_last
    (P := fun r => r.StandsIn text ∧ c.reader.offset ≤ r.offset)
    (fun r hr => ⟨hr.1.step r.step_next, Nat.le_trans hr.2 r.step_next.offset_le⟩) 0
    ⟨h, Nat.le_refl _⟩
  have hreader : c.next.2.reader = last.next.2 := by rw [reader_next, hread]
  have hstart : c.next.2.place.start = last.offset := by rw [place_next, hplace]
  refine ⟨?_, ?_, ?_, ?_, fun node hnode => ?_⟩
  · rw [hreader]
    exact hlast.step last.step_next
  · rw [hstart]
    exact hlast.isBoundary
  · rw [hstart]
    exact hle
  · rw [hstart, hreader]
    exact last.step_next.offset_le
  · obtain ⟨event, hevent, hne⟩ := event_of_node hnode
    rw [hread] at hevent
    rw [hstart, hreader]
    exact last.step_next.offset_lt hevent hne

/-! ## Runs -/

section Runs

/-- However many calls were made, the reader stands in the text. -/
theorem standsIn_behind (h : c.reader.StandsIn text) (calls : Nat) :
    (c.behind calls).reader.StandsIn text := by
  induction calls with
  | zero => exact h
  | succ calls ih => exact (passes ih).stands

/-- Offsets never decrease. -/
theorem offset_behind_le (h : c.reader.StandsIn text) {j k : Nat} (hjk : j ≤ k) :
    (c.behind j).reader.offset ≤ (c.behind k).reader.offset := by
  induction hjk with
  | refl => exact Nat.le_refl _
  | @step k hjk ih =>
    have hpasses := passes (standsIn_behind h k)
    exact Nat.le_trans ih (Nat.le_trans hpasses.start_le hpasses.le_offset)

/-- A call that finds a node leaves the reader farther on than it has ever been. -/
theorem offset_behind_lt (h : c.reader.StandsIn text) {calls earlier : Nat} {node : Node}
    (hnode : (c.behind calls).next.1 = .ok (some node)) (hearlier : earlier ≤ calls) :
    (c.behind earlier).reader.offset < (c.behind (calls + 1)).reader.offset := by
  have hpasses := passes (standsIn_behind h calls)
  calc (c.behind earlier).reader.offset
      ≤ (c.behind calls).reader.offset := offset_behind_le h hearlier
    _ ≤ (c.behind calls).next.2.place.start := hpasses.start_le
    _ < (c.behind (calls + 1)).reader.offset := hpasses.node node hnode

end Runs

end Cursor

end MarkupForms.Markup
