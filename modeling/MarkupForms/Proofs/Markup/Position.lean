import Mathlib.Data.List.Induction
import Mathlib.Data.List.TakeWhile
import Mathlib.Data.Prod.Lex
import MarkupForms.Proofs.Markup.Offsets

/-!
# Positions are ordered and mean one place each

A position counts line breaks and then the characters behind the last of them. Along a text it only
grows, line before column (`key_lt_behind`), so positions at different places between characters
differ, and come in the order of the places. Going back is simple: passing as many line breaks as
there are lines before the position, and then the characters before its column, leads to the place
(`textBehind_foldl_behind`).

A cursor reports positions of offsets that never decrease. Its offsets are places between characters
of the text that it reads. A byte order mark in front is not counted, but is there in the text in
which positions are looked up. So behind one the cursor reports places that are three bytes too
early, or, if such a place is inside a character, has no position to report
(`not_every_position_exact`).
-/

namespace MarkupForms.Markup

namespace Position

/-- Positions are compared by line, and in one line by column. -/
def key (p : Position) : Nat ×ₗ Nat :=
  toLex (p.line, p.column)

/-- The text behind its first line break. -/
def behindBreak (cs : List Char) : List Char :=
  (cs.dropWhile (· != '\n')).drop 1

/-- The text behind a position: line breaks are passed as long as there are lines before it, then
the characters before its column. -/
def textBehind (p : Position) (source : List Char) : List Char :=
  (behindBreak^[p.line - 1] source).drop (p.column - 1)

/-- The offset to which a position leads. -/
def offsetIn (p : Position) (source : List Char) : Nat :=
  byteLength source - byteLength (p.textBehind source)

/-! ## Positions grow -/

theorem key_lt_behind (p : Position) (c : Char) : p.key < (p.behind c).key := by
  rw [key, key, Prod.Lex.toLex_lt_toLex, behind]
  split
  · exact Or.inl (Nat.lt_succ_self _)
  · exact Or.inr ⟨rfl, Nat.lt_succ_self _⟩

/-- Characters are passed one by one. -/
theorem key_le_foldl (p : Position) (cs : List Char) : p.key ≤ (cs.foldl behind p).key := by
  induction cs generalizing p with
  | nil => exact le_refl _
  | cons c cs ih => exact (key_lt_behind p c).le.trans (ih (p.behind c))

theorem key_lt_foldl (p : Position) {cs : List Char} (h : cs ≠ []) :
    p.key < (cs.foldl behind p).key := by
  cases cs with
  | nil => exact absurd rfl h
  | cons c cs => exact (key_lt_behind p c).trans_le (key_le_foldl (p.behind c) cs)

/-! ## Where there are positions -/

theorem advance?_zero (p : Position) (cs : List Char) : p.advance? 0 cs = some p := by
  cases cs <;> rfl

theorem advance?_cons (p : Position) {offset : Nat} (h : 0 < offset) (c : Char) (cs : List Char) :
    p.advance? offset (c :: cs) =
      if c.utf8Size ≤ offset then (p.behind c).advance? (offset - c.utf8Size) cs else none := by
  obtain ⟨offset, rfl⟩ := Nat.exists_eq_succ_of_ne_zero (Nat.pos_iff_ne_zero.1 h)
  rfl

/-- The position of a place between characters is found by passing what is before it. -/
theorem advance?_append (p : Position) (front back : List Char) :
    p.advance? (byteLength front) (front ++ back) = some (front.foldl behind p) := by
  induction front generalizing p with
  | nil => exact advance?_zero p back
  | cons c front ih =>
    have hpos : 0 < byteLength (c :: front) := byteLength_pos (List.cons_ne_nil c front)
    rw [List.cons_append, advance?_cons p hpos, byteLength_cons, if_pos (Nat.le_add_right _ _),
      Nat.add_sub_cancel_left, ih]
    rfl

theorem ofOffset?_append (front back : List Char) :
    ofOffset? (front ++ back) (byteLength front) = some (front.foldl behind first) :=
  advance?_append first front back

/-- Inside a character there is no position. -/
theorem isBoundary_of_advance? {p q : Position} {offset : Nat} {cs : List Char}
    (hle : offset ≤ byteLength cs) (h : p.advance? offset cs = some q) : IsBoundary cs offset := by
  induction cs generalizing p offset with
  | nil => exact ⟨[], [], rfl, (Nat.le_zero.1 hle).symm⟩
  | cons c cs ih =>
    rcases Nat.eq_zero_or_pos offset with rfl | hpos
    · exact ⟨[], c :: cs, rfl, rfl⟩
    · rw [advance?_cons p hpos] at h
      split at h
      · next hsize =>
        rw [byteLength_cons] at hle
        obtain ⟨front, back, rfl, hfront⟩ := ih (Nat.sub_le_iff_le_add'.2 hle) h
        exact ⟨c :: front, back, rfl, by rw [byteLength_cons, hfront, Nat.add_sub_of_le hsize]⟩
      · cases h

/-- **An offset within a text has a position exactly if it stands between two characters.** -/
theorem ofOffset?_isSome_iff {source : List Char} {offset : Nat}
    (hle : offset ≤ byteLength source) :
    (ofOffset? source offset).isSome ↔ IsBoundary source offset := by
  constructor
  · intro h
    obtain ⟨p, hp⟩ := Option.isSome_iff_exists.1 h
    exact isBoundary_of_advance? hle hp
  · rintro ⟨front, back, rfl, rfl⟩
    rw [ofOffset?_append]
    rfl

/-- **Positions come in the order of the places**: between characters, a later one has a later
position. -/
theorem key_lt_of_boundaries {source : List Char} {a b : Nat} (ha : IsBoundary source a)
    (hb : IsBoundary source b) (hab : a < b) :
    ∃ p q, ofOffset? source a = some p ∧ ofOffset? source b = some q ∧ p.key < q.key := by
  obtain ⟨front, back, rfl, rfl⟩ := ha
  obtain ⟨longer, rest, hsource, rfl⟩ := hb
  -- the shorter one of two prefixes of a text is a prefix of the other
  rcases List.append_eq_append_iff.1 hsource with ⟨between, rfl, rfl⟩ | ⟨between, rfl, rfl⟩
  · have hbetween : between ≠ [] := by
      rintro rfl
      rw [List.append_nil] at hab
      exact lt_irrefl _ hab
    refine ⟨_, _, ofOffset?_append front _, by rw [hsource, ofOffset?_append], ?_⟩
    rw [List.foldl_append]
    exact key_lt_foldl _ hbetween
  · rw [byteLength_append] at hab
    omega

/-- Of two offsets that have positions the later one has no earlier position. -/
theorem key_le_of_le {source : List Char} {a b : Nat} {p q : Position} (hab : a ≤ b)
    (hle : b ≤ byteLength source) (hp : ofOffset? source a = some p)
    (hq : ofOffset? source b = some q) : p.key ≤ q.key := by
  rcases Nat.eq_or_lt_of_le hab with rfl | hlt
  · rw [Option.some.inj (hp.symm.trans hq)]
  · obtain ⟨first, second, hfirst, hsecond, hkeys⟩ := key_lt_of_boundaries
      (isBoundary_of_advance? (hab.trans hle) hp) (isBoundary_of_advance? hle hq) hlt
    rw [Option.some.inj (hp.symm.trans hfirst), Option.some.inj (hq.symm.trans hsecond)]
    exact hkeys.le

/-! ## Positions lead back -/

/-- The line counts line breaks, the column the characters behind the last of them. -/
theorem foldl_behind (front : List Char) :
    front.foldl behind first = ⟨front.count '\n' + 1,
      (front.reverse.takeWhile (· != '\n')).length + 1⟩ := by
  induction front using List.reverseRecOn with
  | nil => rfl
  | append_singleton front c ih =>
    rw [List.foldl_append, ih, List.foldl_cons, List.foldl_nil, behind, List.count_append,
      List.reverse_append, List.reverse_singleton, List.singleton_append, List.takeWhile_cons]
    by_cases hbreak : c = '\n'
    · subst hbreak
      rw [if_pos rfl]
      rfl
    · rw [if_neg hbreak, if_pos (bne_iff_ne.2 hbreak), List.count_singleton,
        if_neg (by simpa using hbreak), List.length_cons]

/-- In a text that goes on behind `front`, as many line breaks as there are in `front` lead to its
last line. -/
theorem behindBreak_iterate (front back : List Char) :
    behindBreak^[front.count '\n'] (front ++ back) =
      (front.reverse.takeWhile (· != '\n')).reverse ++ back := by
  induction front using List.reverseRecOn generalizing back with
  | nil => rfl
  | append_singleton front c ih =>
    have hline : ∀ d ∈ (front.reverse.takeWhile (· != '\n')).reverse, (d != '\n') = true :=
      fun d hd =>
      List.mem_takeWhile_imp (p := (· != '\n')) (List.mem_reverse.1 hd)
    rw [List.append_assoc, List.singleton_append, List.count_append, List.reverse_append,
      List.reverse_singleton, List.singleton_append, List.takeWhile_cons]
    by_cases hbreak : c = '\n'
    · subst hbreak
      rw [List.count_singleton_self, Function.iterate_succ_apply', ih, behindBreak,
        List.dropWhile_append_of_pos hline]
      rfl
    · rw [List.count_singleton, if_neg (by simpa using hbreak), Nat.add_zero, ih,
        if_pos (bne_iff_ne.2 hbreak)]
      simp

/-- **A position leads back** to the place that it is the position of. -/
theorem textBehind_foldl_behind (front back : List Char) :
    (front.foldl behind first).textBehind (front ++ back) = back := by
  rw [foldl_behind, textBehind, Nat.add_sub_cancel, Nat.add_sub_cancel, behindBreak_iterate,
    ← List.length_reverse, List.drop_left]

theorem offsetIn_of_ofOffset? {source : List Char} {offset : Nat} {p : Position}
    (hle : offset ≤ byteLength source) (hp : ofOffset? source offset = some p) :
    p.offsetIn source = offset := by
  obtain ⟨front, back, rfl, rfl⟩ := isBoundary_of_advance? hle hp
  rw [ofOffset?_append] at hp
  cases hp
  rw [offsetIn, textBehind_foldl_behind, byteLength_append, Nat.add_sub_cancel_right]

end Position

/-! ## What a cursor reports -/

/-- The bytes of a text that are passed over and not counted: those of a byte order mark. -/
def markLength (source : List Char) : Nat :=
  byteLength source - byteLength (Reader.ofText source).rest

theorem markLength_eq_zero {source : List Char} (h : source.head? ≠ some '\ufeff') :
    markLength source = 0 := by
  rw [markLength, Reader.rest_ofText h, Nat.sub_self]

/-- A place in what is read is one in the whole text. -/
theorem isBoundary_markLength_add {source : List Char} {offset : Nat}
    (h : IsBoundary (Reader.ofText source).rest offset) :
    IsBoundary source (markLength source + offset) := by
  obtain ⟨mark, hsource⟩ := Reader.rest_ofText_suffix source
  obtain ⟨front, back, hrest, rfl⟩ := h
  refine ⟨mark ++ front, back, by rw [List.append_assoc, ← hrest, hsource], ?_⟩
  have hlength : byteLength source = byteLength mark + byteLength (Reader.ofText source).rest := by
    rw [← byteLength_append, hsource]
  rw [byteLength_append, markLength, hlength, Nat.add_sub_cancel_right]

namespace Cursor

/-- The offset in `source` at which the last node starts. -/
def originIn (source : List Char) (c : Cursor) : Nat :=
  markLength source + c.place.start

section Runs

variable {c : Cursor} {text : List Char}

theorem isBoundary_behind (h : c.reader.StandsIn text) (hplace : IsBoundary text c.place.start)
    (calls : Nat) : IsBoundary text (c.behind calls).place.start := by
  cases calls with
  | zero => exact hplace
  | succ calls => exact (passes (standsIn_behind h calls)).boundary

/-- Nodes start one behind the other. -/
theorem start_behind_le (h : c.reader.StandsIn text) (hplace : c.place.start ≤ c.reader.offset)
    {j k : Nat} (hjk : j ≤ k) : (c.behind j).place.start ≤ (c.behind k).place.start := by
  have hbefore : (c.behind j).place.start ≤ (c.behind j).reader.offset := by
    cases j with
    | zero => exact hplace
    | succ j => exact (passes (standsIn_behind h j)).le_offset
  induction hjk with
  | refl => exact Nat.le_refl _
  | @step k hjk ih =>
    calc (c.behind j).place.start ≤ (c.behind j).reader.offset := hbefore
      _ ≤ (c.behind k).reader.offset := offset_behind_le h hjk
      _ ≤ (c.behind (k + 1)).place.start := (passes (standsIn_behind h k)).start_le

/-- Nodes stand between two characters of the text. -/
theorem isBoundary_originIn (source : List Char) (calls : Nat) :
    IsBoundary source (((ofText source).behind calls).originIn source) := by
  have hfirst : IsBoundary (Reader.ofText source).rest (ofText source).place.start :=
    ⟨[], _, rfl, rfl⟩
  exact isBoundary_markLength_add (isBoundary_behind (Reader.standsIn_ofText source) hfirst calls)

theorem start_le_byteLength (source : List Char) (calls : Nat) :
    ((ofText source).behind calls).place.start ≤ byteLength source :=
  (Nat.le_add_left _ _).trans (isBoundary_originIn source calls).le_byteLength

end Runs

/-- **Positions are ordered and mean one place each.** In every text the places between two
characters have positions, and no others within it. A later place has a later position, and a
position leads back to its place. So along every run of a cursor, faults included, the positions
never decrease where there are any; nodes that start at different offsets have different ones, and
these lead back to the offsets.

Nodes always start between two characters. In a document that does not begin with a byte order mark
the cursor has a position for each of them, and it leads to where the node starts. -/
theorem positions_exact (source : List Char) :
    (∀ a, a ≤ byteLength source → ((Position.ofOffset? source a).isSome ↔ IsBoundary source a)) ∧
      (∀ a b, IsBoundary source a → IsBoundary source b → a < b →
        ∃ p q, Position.ofOffset? source a = some p ∧ Position.ofOffset? source b = some q ∧
          p.key < q.key) ∧
      (∀ a p, IsBoundary source a → Position.ofOffset? source a = some p → p.offsetIn source = a) ∧
      let after := (Cursor.ofText source).behind
      (∀ j k p q, j ≤ k → (after j).position? source = some p →
        (after k).position? source = some q → p.key ≤ q.key) ∧
      (∀ j k p q, (after j).position? source = some p → (after k).position? source = some q →
        (after j).place.start ≠ (after k).place.start → p ≠ q) ∧
      (∀ k p, (after k).position? source = some p → p.offsetIn source = (after k).place.start) ∧
      (∀ k, IsBoundary source ((after k).originIn source)) ∧
      (source.head? ≠ some '\ufeff' → ∀ k, ∃ p, (after k).position? source = some p ∧
        p.offsetIn source = (after k).originIn source) := by
  have hstands := Reader.standsIn_ofText source
  have hback : ∀ k p, ((ofText source).behind k).position? source = some p →
      p.offsetIn source = ((ofText source).behind k).place.start :=
    fun k p hp => Position.offsetIn_of_ofOffset? (start_le_byteLength source k) hp
  refine ⟨fun a => Position.ofOffset?_isSome_iff, fun a b => Position.key_lt_of_boundaries,
    ?_, ?_, ?_, hback, isBoundary_originIn source, ?_⟩
  · exact fun a p ha hp => Position.offsetIn_of_ofOffset? ha.le_byteLength hp
  · intro j k p q hjk hp hq
    exact Position.key_le_of_le (start_behind_le hstands (Nat.zero_le _) hjk)
      (start_le_byteLength source k) hp hq
  · rintro j k p q hp hq hne rfl
    exact hne ((hback j p hp).symm.trans (hback k p hq))
  · intro hmark k
    have hplace : IsBoundary source ((ofText source).behind k).place.start := by
      have horigin := isBoundary_originIn source k
      rwa [originIn, markLength_eq_zero hmark, Nat.zero_add] at horigin
    obtain ⟨p, hp⟩ := Option.isSome_iff_exists.1
      ((Position.ofOffset?_isSome_iff hplace.le_byteLength).2 hplace)
    exact ⟨p, hp, by rw [hback k p hp, originIn, markLength_eq_zero hmark, Nat.zero_add]⟩

/-- A document of two lines with a character of two bytes. -/
def brokenLines : List Char := "<a>\n  é<b/></a>".toList

theorem positions_exact_brokenLines :
    (IsBoundary brokenLines 3 ∧ IsBoundary brokenLines 8 ∧
      ∃ p q, Position.ofOffset? brokenLines 3 = some p ∧ Position.ofOffset? brokenLines 8 = some q ∧
        p.key < q.key) ∧
      Position.ofOffset? brokenLines 7 = none ∧
      ∃ p, ((Cursor.ofText brokenLines).behind 3).position? brokenLines = some p ∧ p = ⟨2, 4⟩ ∧
        p.offsetIn brokenLines = 8 := by
  have hbreak : IsBoundary brokenLines 3 :=
    ⟨"<a>".toList, "\n  é<b/></a>".toList, by decide +kernel, by decide +kernel⟩
  have hchild : IsBoundary brokenLines 8 :=
    ⟨"<a>\n  é".toList, "<b/></a>".toList, by decide +kernel, by decide +kernel⟩
  have hthird : ((Cursor.ofText brokenLines).behind 3).place.start = 8 := by decide +kernel
  have hposition : Position.ofOffset? brokenLines 8 = some ⟨2, 4⟩ := by decide +kernel
  have hmark : brokenLines.head? ≠ some '\ufeff' := by decide +kernel
  obtain ⟨-, hordered, -, -, -, hback, -, hreports⟩ := positions_exact brokenLines
  obtain ⟨p, hp, -⟩ := hreports hmark 3
  have hsame : p = ⟨2, 4⟩ := by
    rw [position?, hthird, hposition] at hp
    exact (Option.some.inj hp).symm
  exact ⟨⟨hbreak, hchild, hordered 3 8 hbreak hchild (by decide)⟩, by decide +kernel,
    p, hp, hsame, (hback 3 p hp).trans hthird⟩

/-- A document behind a byte order mark. -/
def markedLines : List Char := "\ufeff<StackLayout>\n  <Label/></StackLayout>".toList

/-- A document behind a byte order mark with a character of two bytes. -/
def markedAccent : List Char := "\ufeff<a t='é'><b/></a>".toList

/-- Behind a byte order mark a cursor reports nodes too early: the label of `markedLines`, which
stands at 2:3, at 1:15. And of the second node of `markedAccent` it has no position to report. -/
theorem not_every_position_exact :
    (¬ ∀ (source : List Char) (calls : Nat) (p : Position),
      ((ofText source).behind calls).position? source = some p →
        p.offsetIn source = ((ofText source).behind calls).originIn source) ∧
    ¬ ∀ (source : List Char) (calls : Nat), ∃ p,
      ((ofText source).behind calls).position? source = some p := by
  constructor
  · intro law
    have hlabel := law markedLines 3 ⟨1, 15⟩ (by decide +kernel)
    revert hlabel
    decide +kernel
  · intro law
    obtain ⟨p, hp⟩ := law markedAccent 2
    have hnone : ((ofText markedAccent).behind 2).position? markedAccent = none := by decide +kernel
    rw [hnone] at hp
    cases hp

end Cursor

/-! ## Faults and documents with all positions -/

/-- A cursor reports a fault at the position where it was found, if there is one. Only behind a byte
order mark there may be none, and the program breaks off. -/
theorem Cursor.reply_of_error {source : List Char} {c : Cursor}
    (h : c.reader.StandsIn (Reader.ofText source).rest) {fault : NodeFault}
    (herror : c.next.1 = .error fault) :
    (∃ p, c.next.2.position? source = some p ∧ (c.reply source).1 = .refused fault p) ∨
      c.next.2.position? source = none ∧ (c.reply source).1 = .aborted ∧
        source.head? = some '\ufeff' := by
  rcases hnext : c.next with ⟨outcome, behind⟩
  rw [hnext] at herror
  cases herror
  cases hposition : behind.position? source with
  | some p =>
    refine Or.inl ⟨p, rfl, ?_⟩
    rw [reply, hnext]
    dsimp only
    rw [hposition]
  | none =>
    refine Or.inr ⟨rfl, ?_, ?_⟩
    · rw [reply, hnext]
      dsimp only
      rw [hposition]
    · by_contra hmark
      have hboundary := (passes h).boundary
      rw [Reader.rest_ofText hmark, hnext] at hboundary
      have hsome := (Position.ofOffset?_isSome_iff hboundary.le_byteLength).2 hboundary
      rw [← position?, hposition] at hsome
      cases hsome

/-- All nodes of a feed have positions, and its end has one as well. -/
def NodeFeed.Positioned (position : Nat → Option Position) : NodeFeed → Prop
  | .node place _ rest => (position place.start).isSome ∧ rest.Positioned position
  | .fault place _ | .finished place => (position place.start).isSome

theorem NodeFeed.positioned_of_forall {position : Nat → Option Position}
    (h : ∀ offset, (position offset).isSome) (f : NodeFeed) : f.Positioned position := by
  induction f with
  | node place node rest ih => exact ⟨h place.start, ih⟩
  | fault place fault => exact h place.start
  | finished place => exact h place.start

theorem Cursor.positioned_feed {position : Nat → Option Position} {text : List Char}
    (hposition : ∀ offset, IsBoundary text offset → (position offset).isSome) {c : Cursor}
    (h : c.reader.StandsIn text) : c.feed.Positioned position := by
  have hplace : ∀ {cursor : Cursor} {feed : NodeFeed}, cursor.reader.StandsIn text →
      cursor.feed = feed → (position feed.place.start).isSome := by
    rintro cursor _ hcursor rfl
    rw [place_feed]
    exact hposition _ (passes hcursor).boundary
  generalize hfeed : c.feed = feed
  induction feed generalizing c with
  | fault place fault => exact hplace h hfeed
  | finished place => exact hplace h hfeed
  | node place node rest ih =>
    exact ⟨hplace h hfeed, ih (passes h).stands (next_of_feed hfeed).2.2⟩

/-- **Without a byte order mark every node has a position**, and so has the end of the document or
its first fault. -/
theorem NodeFeed.positioned_ofText {source : List Char} (h : source.head? ≠ some '\ufeff') :
    (NodeFeed.ofText source).Positioned (Position.ofOffset? source) := by
  have hstands := Reader.standsIn_ofText source
  rw [Reader.rest_ofText h] at hstands
  exact Cursor.positioned_feed
    (fun _ hoffset => (Position.ofOffset?_isSome_iff hoffset.le_byteLength).2 hoffset) hstands

end MarkupForms.Markup
