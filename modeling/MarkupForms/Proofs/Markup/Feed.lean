import MarkupForms.Markup.Cursor

/-!
# The nodes of a document match

The reader keeps the names of the open elements and refuses an end tag that names another one than
the innermost. So in the feed of every document each end tag closes the element that was opened last
(`NodeFeed.matched_ofText`). That is all that later modules know about the reader: what is left open
at the end of the document is no fault of the feed.

A feed unfolds with its cursor, one node at a time. `Cursor.feedWithin` unfolds at most a given
number of nodes, which makes the feed of a given text computable (`Cursor.feedWithin_eq`).
-/

namespace MarkupForms.Markup

/-! ## Unfolding a feed -/

/-- Where a feed begins. -/
def NodeFeed.place : NodeFeed → Place
  | .node place _ _ | .fault place _ | .finished place => place

namespace Cursor

theorem feed_of_node {c behind : Cursor} {node : Node} (h : c.next = (.ok (some node), behind)) :
    c.feed = .node behind.place node behind.feed := by
  rw [feed]
  split
  · next h' =>
    rw [h] at h'
    cases h'
    rfl
  · next h' => rw [h] at h'; cases h'
  · next h' => rw [h] at h'; cases h'

theorem feed_of_end {c behind : Cursor} (h : c.next = (.ok none, behind)) :
    c.feed = .finished behind.place := by
  rw [feed]
  split
  · next h' => rw [h] at h'; cases h'
  · next h' => rw [h] at h'; cases h'; rfl
  · next h' => rw [h] at h'; cases h'

theorem feed_of_fault {c behind : Cursor} {fault : NodeFault}
    (h : c.next = (.error fault, behind)) :
    c.feed = .fault behind.place fault := by
  rw [feed]
  split
  · next h' => rw [h] at h'; cases h'
  · next h' => rw [h] at h'; cases h'
  · next h' => rw [h] at h'; cases h'; rfl

/-- The first node of a feed is what the next call yields, and the others are those behind it. -/
theorem next_of_feed {c : Cursor} {place : Place} {node : Node} {rest : NodeFeed}
    (h : c.feed = .node place node rest) :
    c.next.1 = .ok (some node) ∧ c.next.2.place = place ∧ c.next.2.feed = rest := by
  rcases hnext : c.next with ⟨fault | found, behind⟩
  · rw [feed_of_fault hnext] at h
    cases h
  · cases found with
    | none =>
      rw [feed_of_end hnext] at h
      cases h
    | some node =>
      rw [feed_of_node hnext] at h
      cases h
      exact ⟨rfl, rfl, rfl⟩

/-- A feed begins where the next call finds something, be it a node, a fault or the end. -/
theorem place_feed (c : Cursor) : c.feed.place = c.next.2.place := by
  rcases hnext : c.next with ⟨fault | found, behind⟩
  · rw [feed_of_fault hnext]
    rfl
  · cases found with
    | none =>
      rw [feed_of_end hnext]
      rfl
    | some node =>
      rw [feed_of_node hnext]
      rfl

/-- The first `bound` nodes before a cursor; behind them the feed is cut off. -/
def feedWithin : Nat → Cursor → NodeFeed
  | 0, c => .finished c.place
  | bound + 1, c =>
    match c.next with
    | (.ok (some node), behind) => .node behind.place node (behind.feedWithin bound)
    | (.ok none, behind) => .finished behind.place
    | (.error fault, behind) => .fault behind.place fault

/-- A bound above the number of unread characters cuts nothing off. -/
theorem feedWithin_eq {bound : Nat} {c : Cursor} (h : c.reader.rest.length < bound) :
    c.feedWithin bound = c.feed := by
  induction bound generalizing c with
  | zero => omega
  | succ bound ih =>
    rw [feedWithin]
    split
    · next node behind hnext =>
      -- every node takes up a character, so the bound shrinks no faster than the text
      have hlength := next_length hnext
      rw [feed_of_node hnext, ih (by omega)]
    · next behind hnext => rw [feed_of_end hnext]
    · next fault behind hnext => rw [feed_of_fault hnext]

end Cursor

/-- The feed of a document, computed. A document of `n` characters has at most `n` nodes. -/
theorem NodeFeed.ofText_eq (cs : List Char) :
    NodeFeed.ofText cs = (Cursor.ofText cs).feedWithin (cs.length + 1) := by
  have hlength : (Cursor.ofText cs).reader.rest.length < cs.length + 1 := by
    show (Reader.ofText cs).rest.length < cs.length + 1
    unfold Reader.ofText
    split <;> simp only [List.length_cons] <;> omega
  exact (Cursor.feedWithin_eq hlength).symm

/-! ## What a node does to the open elements -/

namespace Node

/-- The names of the open elements behind a node, innermost first, when `opened` are those before
it. -/
def after (opened : List String) : Node → List String
  | .element tag => if tag.selfClosing then opened else tag.name.written :: opened
  | .endElement _ => opened.tail
  | .text _ | .blank => opened

theorem after_of_closes {opened : List String} {tag : StartTag} (h : tag.selfClosing = true) :
    (Node.element tag).after opened = opened := by
  simp only [after, h, if_true]

theorem after_of_opens {opened : List String} {tag : StartTag} (h : ¬tag.selfClosing = true) :
    (Node.element tag).after opened = tag.name.written :: opened := by
  simp only [after, h, Bool.false_eq_true, if_false]

/-- Whether a node may follow when `opened` are the open elements: an end tag has to name the
innermost one. -/
def Fits (opened : List String) : Node → Prop
  | .endElement written => opened.head? = some written
  | _ => True

end Node

/-- Every node of a feed fits the elements that are open before it. -/
def NodeFeed.Matched : (opened : List String) → NodeFeed → Prop
  | opened, .node _ first rest => first.Fits opened ∧ rest.Matched (first.after opened)
  | _, .fault _ _ | _, .finished _ => True

/-! ## The reader lets nothing else pass -/

/-- What an event does to the names of the open elements. -/
def Event.Moves (before after : List (List Char)) : Event → Prop
  | .startTag content => after = tagName content :: before
  | .endTag name => before = name :: after
  | _ => after = before

namespace Reader

/-- A finishing step keeps account of the open elements. -/
def KeepsCount (finish : List Char → Reader → Reading) : Prop :=
  ∀ content next event, (finish content next).1 = .ok event →
    event.Moves next.opened (finish content next).2.opened

theorem keepsCount_startTag : KeepsCount startTag := by
  intro content next event h
  unfold startTag at h ⊢
  split at h <;> cases h <;> exact rfl

theorem keepsCount_endTag : KeepsCount endTag := by
  intro content next event h
  unfold endTag at h ⊢
  dsimp only at h ⊢
  cases hopened : next.opened with
  | nil => rw [hopened] at h; cases h
  | cons expected outer =>
    rw [hopened] at h
    dsimp only at h ⊢
    -- a name that differs is a fault, and faults owe nothing
    by_cases hname : endName content = expected
    · rw [if_pos hname] at h ⊢
      cases h
      show expected :: outer = endName content :: outer
      rw [hname]
    · rw [if_neg hname] at h
      cases h

/-- A step that refuses its content, or yields an event that opens and closes nothing and goes
on. -/
theorem keepsCount_of_still {finish : List Char → Reader → Reading}
    (h : ∀ content next,
      (∃ event, finish content next = (.ok event, next) ∧ ∀ names, event.Moves names names) ∨
        ∃ fault, (finish content next).1 = .error fault) : KeepsCount finish := by
  intro content next event hevent
  rcases h content next with ⟨found, hfound, hstill⟩ | ⟨fault, hfault⟩
  · rw [hfound] at hevent ⊢
    cases hevent
    exact hstill _
  · rw [hfault] at hevent
    cases hevent

theorem keepsCount_instruction : KeepsCount instruction := by
  apply keepsCount_of_still
  intro content next
  unfold instruction
  split
  · exact Or.inl ⟨_, rfl, fun _ => rfl⟩
  · exact Or.inr ⟨_, rfl⟩

theorem keepsCount_comment : KeepsCount comment := by
  apply keepsCount_of_still
  intro content next
  unfold comment
  split
  · exact Or.inl ⟨_, rfl, fun _ => rfl⟩
  · exact Or.inr ⟨_, rfl⟩

theorem keepsCount_characterData : KeepsCount characterData := by
  apply keepsCount_of_still
  intro content next
  unfold characterData
  split
  · exact Or.inl ⟨_, rfl, fun _ => rfl⟩
  · exact Or.inr ⟨_, rfl⟩

theorem keepsCount_doctype : KeepsCount doctype := by
  apply keepsCount_of_still
  intro content next
  unfold doctype
  split
  · split
    · exact Or.inr ⟨_, rfl⟩
    · exact Or.inl ⟨_, rfl, fun _ => rfl⟩
  · exact Or.inr ⟨_, rfl⟩

theorem piece_moves {r : Reader} {closes : List Char → Bool} {unclosed : LexicalFault}
    {finish : List Char → Reader → Reading} {markup : List Char} {event : Event}
    (hfinish : KeepsCount finish) (h : (r.piece closes unclosed finish markup).1 = .ok event) :
    event.Moves r.opened (r.piece closes unclosed finish markup).2.opened := by
  unfold piece at h ⊢
  split at h
  · next content behind hcut => exact hfinish content _ event h
  · cases h

theorem markup_moves {r : Reader} {cs : List Char} {event : Event}
    (h : (r.markup cs).1 = .ok event) : event.Moves r.opened (r.markup cs).2.opened := by
  unfold markup at h ⊢
  split at h
  · split at h
    · exact piece_moves keepsCount_comment h
    · exact piece_moves keepsCount_characterData h
    · exact piece_moves keepsCount_doctype h
    · exact piece_moves keepsCount_doctype h
    · cases h
  · exact piece_moves keepsCount_endTag h
  · exact piece_moves keepsCount_instruction h
  · exact piece_moves keepsCount_startTag h

theorem next_moves {r : Reader} {event : Event} (h : r.next.1 = .ok event) :
    event.Moves r.opened r.next.2.opened := by
  unfold next at h ⊢
  split at h
  · next hhalted => cases h; rw [if_pos hhalted]; exact rfl
  · next hhalted =>
    rw [if_neg hhalted]
    split at h
    · cases h; exact rfl
    · exact markup_moves h
    · cases h; exact rfl

/-- Asides are passed over with the same elements open. -/
theorem nextContent_moves {asides : Nat} {r : Reader} {event : Event}
    (h : (r.nextContent asides).2.1 = .ok event) :
    event.Moves r.opened (r.nextContent asides).2.2.opened := by
  fun_induction r.nextContent asides with
  | case1 asides r behind hread ih =>
    -- an aside leaves the names alone, so the reader behind it may stand for this one
    have hsame : behind.opened = r.opened := by
      have hmoves := @next_moves r .aside (by rw [hread])
      rwa [hread] at hmoves
    rw [← hsame]
    exact ih h
  | case2 asides r hother => exact next_moves h

end Reader

/-! ## From events to nodes -/

/-- A tag that could be opened is called as it is written, and closes itself as it was told to. -/
theorem openTag_name {scopes inner : List Scope} {content : List Char} {selfClosing : Bool}
    {tag : StartTag} (h : openTag scopes content selfClosing = (.ok tag, inner)) :
    tag.name.written = String.ofList (tagName content) ∧ tag.selfClosing = selfClosing := by
  unfold openTag at h
  split at h
  · cases h
  · next attributes _ =>
    dsimp only at h
    rw [Prod.mk.injEq] at h
    have htag := h.1
    unfold resolveTag at htag
    split at htag
    · cases htag
    · next name hname =>
      cases hattributes : resolveAttributes (scopeOf attributes :: scopes) attributes with
      | error fault => rw [hattributes] at htag; cases htag
      | ok resolved =>
        rw [hattributes] at htag
        cases htag
        refine ⟨?_, rfl⟩
        -- the prefix is cut off for its namespace only; the name as written stays whole
        unfold elementName at hname
        dsimp only at hname
        cases hspace : namespaceOf (scopeOf attributes :: scopes)
            ((cutName (String.ofList (tagName content))).1.getD "") with
        | error fault => rw [hspace] at hname; cases hname
        | ok uri => rw [hspace] at hname; cases hname; rfl

namespace Cursor

/-- The node of an event fits the elements that are open before the event, and leaves open what the
event leaves open. -/
theorem nodeOf_moves {scopes : List Scope} {opened behind : List (List Char)} {event : Event}
    {node : Node} (hmoves : event.Moves opened behind)
    (hnode : (nodeOf scopes event).1 = .ok (some node)) :
    node.Fits (opened.map String.ofList) ∧
      behind.map String.ofList = node.after (opened.map String.ofList) := by
  cases event with
  | startTag content =>
    cases htag : openTag scopes content false with
    | mk outcome inner =>
      cases outcome with
      | error fault => simp only [nodeOf, htag] at hnode; cases hnode
      | ok tag =>
        simp only [nodeOf, htag] at hnode
        cases hnode
        obtain ⟨hname, hopen⟩ := openTag_name htag
        have hopened : behind = tagName content :: opened := hmoves
        refine ⟨trivial, ?_⟩
        rw [Node.after_of_opens (by rw [hopen]; decide), hopened, hname, List.map_cons]
  | emptyTag content =>
    cases htag : openTag scopes content true with
    | mk outcome inner =>
      cases outcome with
      | error fault => simp only [nodeOf, htag] at hnode; cases hnode
      | ok tag =>
        simp only [nodeOf, htag] at hnode
        cases hnode
        have hopened : behind = opened := hmoves
        refine ⟨trivial, ?_⟩
        rw [Node.after_of_closes (openTag_name htag).2, hopened]
  | endTag name =>
    cases hnode
    have hopened : opened = name :: behind := hmoves
    rw [hopened]
    exact ⟨rfl, rfl⟩
  | text raw =>
    have hopened : behind = opened := hmoves
    -- white space and other text are different nodes, and leave the same elements open
    have hshape : node = .blank ∨ ∃ content, node = .text content := by
      simp only [nodeOf, textNode] at hnode
      split at hnode
      · cases hnode
      · cases hnode
        split
        · exact Or.inl rfl
        · exact Or.inr ⟨_, rfl⟩
    rw [hopened]
    rcases hshape with rfl | ⟨content, rfl⟩ <;> exact ⟨trivial, rfl⟩
  | characterData body =>
    cases hnode
    have hopened : behind = opened := hmoves
    rw [hopened]
    exact ⟨trivial, rfl⟩
  | aside => cases hnode
  | finished => cases hnode

/-- The names of the elements that are open at a cursor, innermost first. -/
def openNames (c : Cursor) : List String :=
  c.reader.opened.map String.ofList

/-- Each node fits, and the cursor behind it has the elements open that the node leaves open. -/
theorem next_openNames {c behind : Cursor} {node : Node} (h : c.next = (.ok (some node), behind)) :
    node.Fits c.openNames ∧ behind.openNames = node.after c.openNames := by
  unfold next at h
  split at h
  · cases h
  · next place event reader hread =>
    have hmoves : event.Moves c.reader.opened reader.opened := by
      have hmoves := @Reader.nextContent_moves 0 c.reader event (by rw [hread])
      rwa [hread] at hmoves
    rw [Prod.mk.injEq] at h
    obtain ⟨hnode, rfl⟩ := h
    exact nodeOf_moves hmoves hnode

/-- The feed of a cursor matches the elements that are open there. -/
theorem feed_matched (c : Cursor) : c.feed.Matched c.openNames := by
  fun_induction Cursor.feed c with
  | case1 c node behind hnext ih =>
    obtain ⟨hfits, hopened⟩ := next_openNames hnext
    rw [hopened] at ih
    exact ⟨hfits, ih⟩
  | case2 c behind hnext => trivial
  | case3 c fault behind hnext => trivial

end Cursor

/-- In the feed of a document every end tag closes the element that was opened last. -/
theorem NodeFeed.matched_ofText (cs : List Char) : (NodeFeed.ofText cs).Matched [] := by
  have hmatched := (Cursor.ofText cs).feed_matched
  have hnone : (Cursor.ofText cs).openNames = [] := by
    show (Reader.ofText cs).opened.map String.ofList = []
    -- with or without a byte order mark
    unfold Reader.ofText
    split <;> rfl
  rwa [hnone] at hmatched

end MarkupForms.Markup
