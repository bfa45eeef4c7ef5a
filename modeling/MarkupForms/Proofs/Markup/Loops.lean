import MarkupForms.Proofs.Markup.Offsets

/-!
# Loops that read a document

A reading loop asks a cursor for one node after the other. Loops that call each other share the
cursor, so how long one of them runs is a matter of what the others leave unread. A `Loop` is such a
loop with a bound on its rounds: it yields nothing if it runs out of them. On the way it counts the
calls that succeed.

Every node takes up at least one byte, so the count is never ahead of the reader's offset, until the
end of the document has been read (`LoopState.Within`). That is the account that loops keep; its
only entry is `Loop.ends_nextNode_bind`.
-/

namespace MarkupForms.Markup

/-- A loop on its way: the cursor, the number of calls that succeeded, and what is worked on. -/
structure LoopState (σ : Type) where
  cursor : Cursor
  reads : Nat
  work : σ

namespace LoopState

variable {σ : Type}

/-- The start of a document. -/
def ofText (cs : List Char) (work : σ) : LoopState σ :=
  ⟨.ofText cs, 0, work⟩

/-- The number of unread characters. -/
def unread (s : LoopState σ) : Nat :=
  s.cursor.reader.rest.length

/-- The loop is somewhere in the text, with no more successful calls than bytes passed over, apart
from `spare`. -/
structure Within (text : List Char) (spare : Nat) (s : LoopState σ) : Prop where
  stands : s.cursor.reader.StandsIn text
  reads_le : s.reads ≤ s.cursor.reader.offset + spare

theorem within_ofText (cs : List Char) (work : σ) :
    (ofText cs work).Within (Reader.ofText cs).rest 0 where
  stands := Reader.standsIn_ofText cs
  reads_le := Nat.zero_le _

theorem Within.spare_one {text : List Char} {s : LoopState σ} (h : s.Within text 0) :
    s.Within text 1 where
  stands := h.stands
  reads_le := Nat.le_succ_of_le h.reads_le

theorem Within.unread_le {text : List Char} {spare : Nat} {s : LoopState σ}
    (h : s.Within text spare) :
    s.unread ≤ text.length :=
  h.stands.length_rest_le

/-- What is worked on is no part of the account. -/
theorem Within.working {text : List Char} {spare : Nat} {s : LoopState σ} (h : s.Within text spare)
    (work : σ) :
    Within text spare { s with work := work } where
  stands := h.stands
  reads_le := h.reads_le

/-- There are no more successful calls than bytes in the text, and one. -/
theorem Within.reads_le_utf8ByteSize {text : String} {s : LoopState σ}
    (h : s.Within (Reader.ofText text.toList).rest 1) :
    s.reads ≤ text.utf8ByteSize + 1 :=
  Nat.le_trans h.reads_le (Nat.succ_le_succ h.stands.offset_le)

end LoopState

/-- A loop, from where it starts to what it comes to and where it stops. -/
def Loop (σ ε α : Type) : Type :=
  LoopState σ → Option (Except ε α × LoopState σ)

namespace Loop

variable {σ ε α β : Type}

/-- The result of a loop that stops where it is. -/
def done (value : α) : Loop σ ε α := fun s => some (.ok value, s)

/-- The error of a loop that stops where it is. -/
def fail (error : ε) : Loop σ ε α := fun s => some (.error error, s)

/-- A loop that has no rounds left. -/
def exhausted : Loop σ ε α := fun _ => none

/-- One loop after the other, unless the first one fails. -/
def andThen (loop : Loop σ ε α) (next : α → Loop σ ε β) : Loop σ ε β := fun s =>
  match loop s with
  | some (.ok value, last) => next value last
  | some (.error error, last) => some (.error error, last)
  | none => none

instance : Monad (Loop σ ε) where
  pure := done
  bind := andThen

/-- Work without reading. -/
def working (f : σ → Except ε α × σ) : Loop σ ε α := fun s =>
  some ((f s.work).1, { s with work := (f s.work).2 })

/-- The offset at which the last node starts. -/
def start : Loop σ ε Nat := fun s => some (.ok s.cursor.place.start, s)

/-- The next node, none at the end. A fault is reported by `report`. -/
def nextNode (report : Place → NodeFault → ε) : Loop σ ε (Option Node) := fun s =>
  match s.cursor.next with
  | (.ok node, behind) => some (.ok node, ⟨behind, s.reads + 1, s.work⟩)
  | (.error fault, behind) => some (.error (report behind.place fault), ⟨behind, s.reads, s.work⟩)

/-! ## Loops that end -/

/-- The loop comes to an end, with a result and at a point for which `Q` holds. -/
def Ends (loop : Loop σ ε α) (s : LoopState σ) (Q : Except ε α → LoopState σ → Prop) : Prop :=
  ∃ result last, loop s = some (result, last) ∧ Q result last

section Endings

variable {s : LoopState σ} {Q R : Except ε α → LoopState σ → Prop}

theorem Ends.mono {loop : Loop σ ε α} (h : loop.Ends s Q)
    (hQ : ∀ result last, Q result last → R result last) :
    loop.Ends s R := by
  obtain ⟨result, last, hloop, hend⟩ := h
  exact ⟨result, last, hloop, hQ result last hend⟩

theorem ends_done {value : α} (h : Q (.ok value) s) : (pure value : Loop σ ε α).Ends s Q :=
  ⟨_, _, rfl, h⟩

theorem ends_fail {error : ε} (h : Q (.error error) s) : (fail error : Loop σ ε α).Ends s Q :=
  ⟨_, _, rfl, h⟩

/-- A sequence whose first loop has a value. -/
theorem ends_bind_of_ok {loop : Loop σ ε β} {next : β → Loop σ ε α} {value : β} {last : LoopState σ}
    (hloop : loop s = some (.ok value, last)) (hnext : (next value).Ends last Q) :
    (loop >>= next).Ends s Q := by
  obtain ⟨result, final, hfinal, hQ⟩ := hnext
  refine ⟨result, final, ?_, hQ⟩
  change loop.andThen next s = some (result, final)
  rw [andThen, hloop]
  exact hfinal

/-- A sequence whose first loop fails. -/
theorem ends_bind_of_error {loop : Loop σ ε β} {next : β → Loop σ ε α} {error : ε}
    {last : LoopState σ} (hloop : loop s = some (.error error, last)) (hQ : Q (.error error) last) :
    (loop >>= next).Ends s Q := by
  refine ⟨.error error, last, ?_, hQ⟩
  change loop.andThen next s = some (.error error, last)
  rw [andThen, hloop]

/-- Of two loops, the second one starts where the first one stops. -/
theorem Ends.bind {loop : Loop σ ε β} {next : β → Loop σ ε α} {P : Except ε β → LoopState σ → Prop}
    (h : loop.Ends s P) (hok : ∀ value last, P (.ok value) last → (next value).Ends last Q)
    (herror : ∀ error last, P (.error error) last → Q (.error error) last) :
    (loop >>= next).Ends s Q := by
  obtain ⟨error | value, last, hloop, hend⟩ := h
  · exact ends_bind_of_error hloop (herror error last hend)
  · exact ends_bind_of_ok hloop (hok value last hend)

/-- **One call** is paid for by the bytes that it passes over, and the last one by the spare one. -/
theorem ends_nextNode_bind {text : List Char} {report : Place → NodeFault → ε}
    {next : Option Node → Loop σ ε α} (hs : s.Within text 0)
    (hnode : ∀ node (behind : LoopState σ),
      s.cursor.feed = .node behind.cursor.place node behind.cursor.feed →
      behind.Within text 0 → behind.unread < s.unread → behind.work = s.work →
      (next (some node)).Ends behind Q)
    (hend : ∀ behind : LoopState σ, s.cursor.feed = .finished behind.cursor.place →
      behind.Within text 1 → behind.work = s.work → (next none).Ends behind Q)
    (hfault : ∀ fault (behind : LoopState σ), s.cursor.feed = .fault behind.cursor.place fault →
      behind.Within text 1 →
      behind.work = s.work → Q (.error (report behind.cursor.place fault)) behind) :
    (nextNode report >>= next).Ends s Q := by
  obtain ⟨hstands, -, hstart, hoffset, hpaid⟩ := Cursor.passes hs.stands
  rcases hnext : s.cursor.next with ⟨outcome, behind⟩
  rw [hnext] at hstands hstart hoffset hpaid
  dsimp only at hstands hstart hoffset hpaid
  have hreads : s.reads ≤ behind.reader.offset :=
    calc s.reads ≤ s.cursor.reader.offset := hs.reads_le
      _ ≤ behind.place.start := hstart
      _ ≤ behind.reader.offset := hoffset
  match outcome with
  | .error fault =>
    have hloop : nextNode report s = some (.error (report behind.place fault),
        ⟨behind, s.reads, s.work⟩) := by
      rw [nextNode, hnext]
    refine ends_bind_of_error hloop (hfault fault ⟨behind, s.reads, s.work⟩
      (Cursor.feed_of_fault hnext) ?_ rfl)
    exact ⟨hstands, Nat.le_succ_of_le hreads⟩
  | .ok none =>
    have hloop : nextNode report s = some (.ok none, ⟨behind, s.reads + 1, s.work⟩) := by
      rw [nextNode, hnext]
    refine ends_bind_of_ok hloop (hend _ (Cursor.feed_of_end hnext) ?_ rfl)
    exact ⟨hstands, Nat.succ_le_succ hreads⟩
  | .ok (some node) =>
    have hloop : nextNode report s = some (.ok (some node), ⟨behind, s.reads + 1, s.work⟩) := by
      rw [nextNode, hnext]
    have hfewer : s.reads < behind.reader.offset :=
      calc s.reads ≤ s.cursor.reader.offset := hs.reads_le
        _ ≤ behind.place.start := hstart
        _ < behind.reader.offset := hpaid node rfl
    refine ends_bind_of_ok hloop (hnode node _ (Cursor.feed_of_node hnext) ?_
      (Cursor.next_length hnext) rfl)
    exact ⟨hstands, hfewer⟩

end Endings

end Loop

end MarkupForms.Markup
