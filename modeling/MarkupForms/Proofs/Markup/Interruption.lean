import MarkupForms.Proofs.Markup.Pieces
import MarkupForms.Proofs.Markup.Spelling

/-!
# A document with one more aside

An aside between two nodes changes no node. Inside a run of text it parts the run: what was one node
becomes two, the references in both parts being expanded as before unless the aside stands in the
middle of one (`unescape_append`).

`NodeFeed.Interrupted` says what this comes to for the nodes of the whole document.
-/

namespace MarkupForms.Markup

/-! ## References on both sides of a place -/

/-- A place inside a reference that stands for a character: the ampersand and a part of the name are
before it, the rest of the name and the semicolon are behind it. -/
def CutsReference (run behind : List Char) : Prop :=
  ∃ before name rest after c, run = before ++ '&' :: name ∧ behind = rest ++ ';' :: after ∧
    '&' ∉ name ++ rest ∧ ';' ∉ name ++ rest ∧ (expand 0 (name ++ rest)).toOption = some c

theorem CutsReference.cons {run behind : List Char} (c : Char) (h : CutsReference run behind) :
    CutsReference (c :: run) behind := by
  obtain ⟨before, name, rest, after, found, rfl, hrest⟩ := h
  exact ⟨c :: before, name, rest, after, found, rfl, hrest⟩

theorem CutsReference.append {run behind : List Char} (before : List Char)
    (h : CutsReference run behind) :
    CutsReference (before ++ run) behind := by
  induction before with
  | nil => exact h
  | cons c before ih => exact ih.cons c

/-- Behind a run without references nothing is cut. -/
theorem not_cutsReference_of_plain {run behind : List Char} (h : '&' ∉ run) :
    ¬ CutsReference run behind := by
  rintro ⟨before, name, rest, after, c, rfl, -⟩
  exact h (List.mem_append_right _ (List.mem_cons_self ..))

/-- A text with its references expanded, if they all stand for something. Offsets are of no account
here; of a reference that has begun, the name read so far is given, last character first. -/
def expanded? : (begun : Option (List Char)) → List Char → Option (List Char)
  | none, [] => some []
  | some _, [] => none
  | none, c :: cs => if c = '&' then expanded? (some []) cs else (expanded? none cs).map (c :: ·)
  | some name, c :: cs =>
    if c = '&' then none
    else if c = ';' then
      (expand 0 name.reverse).toOption.bind fun found => (expanded? none cs).map (found :: ·)
    else expanded? (some (c :: name)) cs

theorem toOption_map {ε α β : Type} (result : Except ε α) (f : α → β) :
    (result.map f).toOption = result.toOption.map f := by
  cases result <;> rfl

/-- The offset shows in complaints only. -/
theorem toOption_expand (start other : Nat) (name : List Char) :
    (expand start name).toOption = (expand other name).toOption := by
  unfold expand
  split
  · rfl
  · cases entity? (String.ofList name) <;> rfl

theorem toOption_unescapeFrom (total offset : Nat) (begun : Option (Nat × List Char))
    (cs : List Char) :
    (unescapeFrom total offset begun cs).toOption = expanded? (begun.map (·.2)) cs := by
  induction cs generalizing offset begun with
  | nil => cases begun <;> rfl
  | cons c cs ih =>
    cases begun with
    | none =>
      rw [unescapeFrom, Option.map_none, expanded?]
      split
      · exact ih _ _
      · rw [toOption_map, ih]
        rfl
    | some begun =>
      obtain ⟨start, name⟩ := begun
      rw [unescapeFrom, Option.map_some, expanded?]
      split
      · rfl
      · split
        · rw [toOption_expand 0 (start + 1)]
          cases expand (start + 1) name.reverse with
          | error fault => rfl
          | ok found =>
            dsimp only
            rw [toOption_map, ih]
            rfl
        · exact ih _ _

theorem toOption_unescape (cs : List Char) : (unescape cs).toOption = expanded? none cs :=
  toOption_unescapeFrom (byteLength cs) 0 none cs

/-- A reference that is open at the end of one text and closed in the next is cut between them. -/
theorem cutsReference_of_expanded {name behind expansion : List Char}
    (hname : '&' ∉ name ∧ ';' ∉ name) (h : expanded? (some name) behind = some expansion) :
    CutsReference ('&' :: name.reverse) behind := by
  have hcut : ∃ rest after c, behind = rest ++ ';' :: after ∧ '&' ∉ rest ∧ ';' ∉ rest ∧
      (expand 0 (name.reverse ++ rest)).toOption = some c := by
    induction behind generalizing name with
    | nil => cases h
    | cons c behind ih =>
      rw [expanded?] at h
      split at h
      · cases h
      · next hamp =>
        split at h
        · next hsemicolon =>
          subst hsemicolon
          obtain ⟨found, hfound, -⟩ := Option.bind_eq_some_iff.1 h
          exact ⟨[], behind, found, rfl, List.not_mem_nil,
            List.not_mem_nil, by rw [List.append_nil, hfound]⟩
        · next hsemicolon =>
          have hlonger : '&' ∉ c :: name ∧ ';' ∉ c :: name := by
            simp only [List.mem_cons, not_or]
            exact ⟨⟨Ne.symm hamp, hname.1⟩, Ne.symm hsemicolon, hname.2⟩
          obtain ⟨rest, after, found, rfl, hrestAmp, hrestSemicolon, hfound⟩ := ih hlonger h
          refine ⟨c :: rest, after, found, rfl, ?_, ?_, ?_⟩
          · exact fun hmem => (List.mem_cons.1 hmem).elim (fun heq => hamp heq.symm) hrestAmp
          · exact fun hmem => (List.mem_cons.1 hmem).elim
              (fun heq => hsemicolon heq.symm) hrestSemicolon
          · rwa [List.reverse_cons, List.append_assoc] at hfound
  obtain ⟨rest, after, found, hbehind, hamp, hsemicolon, hfound⟩ := hcut
  refine ⟨[], name.reverse, rest, after, found, rfl, hbehind, ?_, ?_, hfound⟩
  · simpa using ⟨hname.1, hamp⟩
  · simpa using ⟨hname.2, hsemicolon⟩

/-- The text of a reference that has begun. -/
def begunText : Option (List Char) → List Char
  | none => []
  | some name => '&' :: name.reverse

theorem expanded?_append {begun : Option (List Char)} {run behind : List Char}
    (hname : ∀ name, begun = some name → '&' ∉ name ∧ ';' ∉ name)
    (h : ¬ CutsReference (begunText begun ++ run) behind) :
    expanded? begun (run ++ behind) =
      (expanded? begun run).bind fun first => (expanded? none behind).map (first ++ ·) := by
  induction run generalizing begun with
  | nil =>
    cases begun with
    | none => simp [expanded?]
    | some name =>
      rw [List.nil_append, expanded?, Option.bind_none, Option.eq_none_iff_forall_ne_some]
      intro expansion hexpansion
      rw [begunText, List.append_nil] at h
      exact h (cutsReference_of_expanded (hname name rfl) hexpansion)
  | cons c run ih =>
    have houtside : ¬ CutsReference run behind →
        expanded? none (run ++ behind) =
          (expanded? none run).bind fun first => (expanded? none behind).map (first ++ ·) := by
      refine @ih none fun name heq => ?_
      cases heq
    cases begun with
    | none =>
      rw [List.cons_append, expanded?, expanded?]
      split
      · next hamp =>
        subst hamp
        exact ih (fun name heq => by cases heq; exact ⟨List.not_mem_nil, List.not_mem_nil⟩) h
      · rw [houtside fun hcut => h (hcut.cons c)]
        cases expanded? none run <;> cases expanded? none behind <;> rfl
    | some name =>
      obtain ⟨hnameAmp, hnameSemicolon⟩ := hname name rfl
      have hread : begunText (some name) ++ c :: run = ('&' :: name.reverse ++ [c]) ++ run := by
        simp [begunText]
      rw [hread] at h
      rw [List.cons_append, expanded?, expanded?]
      split
      · rfl
      · next hamp =>
        split
        · rw [houtside fun hcut => h (hcut.append _)]
          cases (expand 0 name.reverse).toOption <;> cases expanded? none run <;>
            cases expanded? none behind <;> rfl
        · next hsemicolon =>
          refine ih (fun longer heq => ?_) (by rwa [begunText, List.reverse_cons])
          cases heq
          simp only [List.mem_cons, not_or]
          exact ⟨⟨Ne.symm hamp, hnameAmp⟩, Ne.symm hsemicolon, hnameSemicolon⟩

/-- **Both parts of a text are expanded for themselves**, if no reference is cut. -/
theorem unescape_append {run behind : List Char} (h : ¬ CutsReference run behind) :
    (unescape (run ++ behind)).toOption =
      (unescape run).toOption.bind fun first => (unescape behind).toOption.map (first ++ ·) := by
  rw [toOption_unescape, toOption_unescape, toOption_unescape]
  exact expanded?_append (fun _ heq => by cases heq) h

/-! ## The nodes of a text -/

namespace NodeFeed

/-- The feed without places. -/
def placeless : NodeFeed → NodeFeed
  | .node _ first rest => .node ⟨0, 0⟩ first rest.placeless
  | .fault _ cause => .fault ⟨0, 0⟩ cause
  | .finished _ => .finished ⟨0, 0⟩

theorem alike_placeless (f : NodeFeed) : f.Alike f.placeless ∧ f.placeless.Alike f := by
  induction f with
  | node place node rest ih => exact ⟨.node _ _ (.refl node) ih.1, .node _ _ (.refl node) ih.2⟩
  | fault place fault => exact ⟨.fault _ _ _ _, .fault _ _ _ _⟩
  | finished place => exact ⟨.finished _ _, .finished _ _⟩

/-- What was found, in front of what follows. -/
def lead (found : Except NodeFault (Option Node)) (rest : NodeFeed) : NodeFeed :=
  match found with
  | .ok (some first) => .node ⟨0, 0⟩ first rest
  | .ok none => rest
  | .error cause => .fault ⟨0, 0⟩ cause

end NodeFeed

namespace Reader

theorem nextContent_of_aside {r behind : Reader} (asides : Nat)
    (h : r.next = (.ok .aside, behind)) :
    r.nextContent asides = behind.nextContent (asides + 1) := by
  rw [nextContent]
  split
  · next hread => rw [h] at hread; cases hread; rfl
  · next hother => exact absurd h (hother behind)

theorem nextContent_of_content {r : Reader} (asides : Nat)
    (h : ∀ behind, r.next ≠ (.ok .aside, behind)) :
    r.nextContent asides = (⟨r.offset, asides⟩, r.next) := by
  rw [nextContent]
  split
  · next hread => exact absurd hread (h _)
  · rfl

/-- The number of asides passed over does not show in what is read. -/
theorem nextContent_reading (asides other : Nat) (r : Reader) :
    (r.nextContent asides).2 = (r.nextContent other).2 := by
  fun_induction r.nextContent asides generalizing other with
  | case1 asides r behind hread ih => rw [nextContent_of_aside other hread, ih]
  | case2 asides r hother => rw [nextContent_of_content other hother]

end Reader

namespace Cursor

theorem feed_place (reader : Reader) (scopes : List Scope) (place other : Place) :
    (Cursor.mk reader scopes place).feed = (Cursor.mk reader scopes other).feed := by
  have hsame : (Cursor.mk reader scopes other).next = (Cursor.mk reader scopes place).next := rfl
  rcases hnext : (Cursor.mk reader scopes place).next with ⟨fault | _ | node, behind⟩
  · rw [feed_of_fault hnext, feed_of_fault (hsame.trans hnext)]
  · rw [feed_of_end hnext, feed_of_end (hsame.trans hnext)]
  · rw [feed_of_node hnext, feed_of_node (hsame.trans hnext)]

/-- The nodes before a cursor, taken from the next event. -/
theorem placeless_feed (c : Cursor) :
    c.feed.placeless =
      match (c.reader.nextContent 0).2 with
      | (.error fault, _) => .fault ⟨0, 0⟩ (.unreadable fault)
      | (.ok event, reader) =>
        match (nodeOf c.scopes event).1 with
        | .ok (some node) =>
          .node ⟨0, 0⟩ node (feed ⟨reader, (nodeOf c.scopes event).2, ⟨0, 0⟩⟩).placeless
        | .ok none => .finished ⟨0, 0⟩
        | .error fault => .fault ⟨0, 0⟩ fault := by
  rcases hread : c.reader.nextContent 0 with ⟨place, fault | event, reader⟩
  · have hnext : c.next = (.error (.unreadable fault), ⟨reader, c.scopes, place⟩) := by
      rw [next, hread]
    rw [feed_of_fault hnext]
    rfl
  · have hnext : c.next = ((nodeOf c.scopes event).1,
        ⟨reader, (nodeOf c.scopes event).2, place⟩) := by
      rw [next, hread]
    dsimp only
    rcases hnode : (nodeOf c.scopes event).1 with fault | _ | node
    · rw [hnode] at hnext
      rw [feed_of_fault hnext]
      rfl
    · rw [hnode] at hnext
      rw [feed_of_end hnext]
      rfl
    · rw [hnode] at hnext
      rw [feed_of_node hnext, NodeFeed.placeless, feed_place reader _ place ⟨0, 0⟩]

section Events

variable {c : Cursor}

theorem placeless_feed_of_fault {fault : ReadFault} (h : c.reader.next.1 = .error fault) :
    c.feed.placeless = .fault ⟨0, 0⟩ (.unreadable fault) := by
  have hcontent : ∀ behind, c.reader.next ≠ (.ok .aside, behind) := by
    intro behind heq
    rw [heq] at h
    cases h
  rw [placeless_feed, Reader.nextContent_of_content 0 hcontent]
  rcases hnext : c.reader.next with ⟨fault | event, reader⟩
  · rw [hnext] at h
    cases h
    rfl
  · rw [hnext] at h
    cases h

theorem placeless_feed_of_finished (h : c.reader.next.1 = .ok .finished) :
    c.feed.placeless = .finished ⟨0, 0⟩ := by
  have hcontent : ∀ behind, c.reader.next ≠ (.ok .aside, behind) := by
    intro behind heq
    rw [heq] at h
    cases h
  rw [placeless_feed, Reader.nextContent_of_content 0 hcontent]
  rcases hnext : c.reader.next with ⟨fault | event, reader⟩
  · rw [hnext] at h
    cases h
  · rw [hnext] at h
    cases h
    rfl

/-- What comes of an event, in front of what is behind it. An aside comes to nothing. -/
theorem placeless_feed_of_event {event : Event} (h : c.reader.next.1 = .ok event)
    (hne : event ≠ .finished) :
    c.feed.placeless =
      .lead (nodeOf c.scopes event).1
        (feed ⟨c.reader.next.2, (nodeOf c.scopes event).2, ⟨0, 0⟩⟩).placeless := by
  have hnext : c.reader.next = (.ok event, c.reader.next.2) := Prod.ext h rfl
  by_cases haside : event = .aside
  · subst haside
    show c.feed.placeless = (feed ⟨c.reader.next.2, c.scopes, ⟨0, 0⟩⟩).placeless
    rw [placeless_feed, placeless_feed, Reader.nextContent_of_aside 0 hnext,
      Reader.nextContent_reading (0 + 1) 0 c.reader.next.2]
  · have hcontent : ∀ behind, c.reader.next ≠ (.ok .aside, behind) := by
      intro behind heq
      rw [heq] at h
      cases h
      exact haside rfl
    rw [placeless_feed, Reader.nextContent_of_content 0 hcontent]
    dsimp only
    rw [hnext]
    dsimp only
    rcases hnode : (nodeOf c.scopes event).1 with fault | _ | node
    · rfl
    · rcases quiet_of_nodeOf hnode with rfl | rfl
      · exact absurd rfl haside
      · exact absurd rfl hne
    · rfl

end Events

/-- The nodes before a cursor depend on its text, on the open elements and on their scopes. -/
theorem placeless_feed_congr {c d : Cursor} {opened : List (List Char)} {rest : List Char}
    (hc : c.reader.At opened rest) (hd : d.reader.At opened rest) (hscopes : c.scopes = d.scopes) :
    c.feed.placeless = d.feed.placeless := by
  have hbehind : ∀ {event : Event} {behind : List (List Char)} {unread : List Char},
      event ≠ .finished →
      unread.length < rest.length → c.reader.next.1 = .ok event → d.reader.next.1 = .ok event →
      c.reader.next.2.At behind unread → d.reader.next.2.At behind unread →
      c.feed.placeless = d.feed.placeless := by
    intro event behind unread hne hshorter hfirst hsecond hc hd
    rw [placeless_feed_of_event hfirst hne, placeless_feed_of_event hsecond hne, hscopes]
    exact congrArg (NodeFeed.lead _) (placeless_feed_congr hc hd rfl)
  cases Reader.meets opened rest with
  | finished =>
    rw [placeless_feed_of_finished (Reader.next_of_end hc),
      placeless_feed_of_finished (Reader.next_of_end hd)]
  | broken _ fails =>
    rw [placeless_feed_of_fault (fails _ hc), placeless_feed_of_fault (fails _ hd)]
  | @run run unread nonempty plain ends =>
    obtain ⟨hfirst, hc⟩ := Reader.next_of_run hc nonempty plain ends
    obtain ⟨hsecond, hd⟩ := Reader.next_of_run hd nonempty plain ends
    have hlength := List.length_pos_iff.2 nonempty
    have hne : Event.text run ≠ .finished := nofun
    exact hbehind hne (by rw [List.length_append]; omega) hfirst hsecond hc hd
  | @markup rule content unread markup =>
    rcases markup.settles opened with ⟨fault, hfault⟩ | ⟨event, hcomes⟩
    · rw [placeless_feed_of_fault (Reader.next_of_fault hc markup hfault),
        placeless_feed_of_fault (Reader.next_of_fault hd markup hfault)]
    · obtain ⟨hfirst, hc⟩ := Reader.next_of_comes hc markup hcomes
      obtain ⟨hsecond, hd⟩ := Reader.next_of_comes hd markup hcomes
      refine hbehind hcomes.unfinished ?_ hfirst hsecond hc hd
      simp only [List.length_append, List.length_cons]
      omega
termination_by rest.length

end Cursor

/-- The nodes of a text, without places, with these elements open and these scopes. -/
def nodesAt (opened : List (List Char)) (scopes : List Scope) (rest : List Char) : NodeFeed :=
  (Cursor.mk ⟨rest, 0, opened, false⟩ scopes ⟨0, 0⟩).feed.placeless

section NodesAt

variable {opened : List (List Char)} {scopes : List Scope} {rest : List Char}

theorem Cursor.placeless_feed_at {c : Cursor} (h : c.reader.At opened rest) :
    c.feed.placeless = nodesAt opened c.scopes rest :=
  placeless_feed_congr h ⟨rfl, rfl, rfl⟩ rfl

/-- The reader that `nodesAt` speaks of. -/
theorem Reader.at_mk (opened : List (List Char)) (rest : List Char) :
    (Reader.mk rest 0 opened false).At opened rest := ⟨rfl, rfl, rfl⟩

/-- A run of text comes first. -/
theorem nodesAt_run {run : List Char} (hne : run ≠ []) (hplain : '<' ∉ run) (hrest : EndsRun rest) :
    nodesAt opened scopes (run ++ rest) = .lead (Cursor.textNode run)
      (nodesAt opened scopes rest) := by
  obtain ⟨hevent, hbehind⟩ := Reader.next_of_run (Reader.at_mk opened _) hne hplain hrest
  have hunfinished : Event.text run ≠ .finished := nofun
  rw [nodesAt, Cursor.placeless_feed_of_event hevent hunfinished]
  exact congrArg (NodeFeed.lead _) (Cursor.placeless_feed_at hbehind)

theorem nodesAt_of_fault {rule : PieceRule} {content : List Char} {fault : ReadFault}
    (hmarkup : IsMarkup rule content)
    (hfault : ∀ r : Reader, r.opened = opened → (rule.finish content r).1 = .error fault) :
    nodesAt opened scopes ('<' :: content ++ '>' :: rest) = .fault ⟨0, 0⟩ (.unreadable fault) :=
  Cursor.placeless_feed_of_fault (Reader.next_of_fault (Reader.at_mk opened _) hmarkup hfault)

/-- What a piece of markup comes to is first. -/
theorem nodesAt_of_comes {rule : PieceRule} {content : List Char} {behind : List (List Char)}
    {event : Event} (hmarkup : IsMarkup rule content)
    (hcomes : rule.Comes content opened behind event) :
    nodesAt opened scopes ('<' :: content ++ '>' :: rest) =
      .lead (Cursor.nodeOf scopes event).1 (nodesAt behind
        (Cursor.nodeOf scopes event).2 rest) := by
  obtain ⟨hevent, hbehind⟩ := Reader.next_of_comes (Reader.at_mk opened _) hmarkup hcomes
  rw [nodesAt, Cursor.placeless_feed_of_event hevent hcomes.unfinished]
  exact congrArg (NodeFeed.lead _) (Cursor.placeless_feed_at hbehind)

/-- **An aside in front of a text adds no node.** -/
theorem nodesAt_aside {aside : List Char} (h : IsAside aside) :
    nodesAt opened scopes (aside ++ rest) = nodesAt opened scopes rest := by
  obtain ⟨rule, content, rfl, hmarkup, hfinish⟩ := h.comes
  have hcomes : rule.Comes content opened opened .aside := by
    refine ⟨nofun, rfl, fun r hr => ?_⟩
    subst hr
    exact hfinish r
  rw [List.append_assoc]
  exact nodesAt_of_comes hmarkup hcomes

end NodesAt

/-! ## What an aside changes -/

/-- The node of a run of text with this content. -/
def runNode (content : List Char) : Node :=
  if Text.isAllBlank content then .blank else .text (String.ofList content)

theorem textNode_of_expansion {raw content : List Char} (h : unescape raw = .ok content) :
    Cursor.textNode raw = .ok (some (runNode content)) := by
  rw [Cursor.textNode, h]
  rfl

theorem textNode_of_fault {raw : List Char} {fault : EscapeFault}
    (h : unescape raw = .error fault) :
    Cursor.textNode raw = .error (.badText fault) := by
  rw [Cursor.textNode, h]

/-- Whether a run of text comes to more than white space. -/
def showsText (raw : List Char) : Bool :=
  match unescape raw with
  | .ok content => !Text.isAllBlank content
  | .error _ => false

/-- Whether a name as it is written is that of a property: there is a dot behind the prefix. -/
def namesProperty (written : String) : Bool :=
  (cutName written).2.toList.contains '.'

/-- Whether the innermost of the open elements stands for a property of the one around it. -/
def insideProperty : (opened : List String) → Bool
  | written :: _ :: _ => namesProperty written
  | _ => false

/-- The name of an element is known by what stands behind its prefix. -/
def Node.Spelled : Node → Prop
  | .element tag => tag.name.localName = (cutName tag.name.written).2
  | _ => True

/-- The second feed is the first with one more aside, the elements `opened` being open before both.
If the aside stands inside a run of text, that run is parted. If it stands between two parts of the
value of a property element that show something, the value is `divided`. -/
inductive NodeFeed.Interrupted (divided : Bool) : (opened : List String) → NodeFeed → NodeFeed →
    Prop where
  | node {opened : List String} {node : Node} {f g : NodeFeed} (placeA placeB : Place)
      (spelled : node.Spelled) (rest : Interrupted divided (node.after opened) f g) :
      Interrupted divided opened (.node placeA node f) (.node placeB node g)
  | fault {opened : List String} (placeA placeB : Place) (a b : NodeFault) :
      Interrupted divided opened (.fault placeA a) (.fault placeB b)
  | between {opened : List String} (f : NodeFeed) (whole : divided = false) :
      Interrupted divided opened f f
  | text {opened : List String} {first second : List Char} (placeA placeB placeC : Place)
      (f : NodeFeed) (h : divided =
        (insideProperty opened && (!Text.isAllBlank first && !Text.isAllBlank second))) :
      Interrupted divided opened (.node placeA (runNode (first ++ second)) f)
        (.node placeB (runNode first) (.node placeC (runNode second) f))
  | badText {opened : List String} {first : List Char} (placeA placeB placeC : Place)
      (a b : NodeFault) :
      Interrupted divided opened (.fault placeA a) (.node placeB (runNode first) (.fault placeC b))

/-- A place in the content of a document at which an aside may stand: behind complete pieces of
markup and a part of a run of text, and not inside a reference. -/
structure Gap where
  before : List Char
  run : List Char
  after : List Char
  opened : List (List Char)
  complete : Complete opened before
  plain : '<' ∉ run
  uncut : ¬ CutsReference run after

namespace Gap

variable (gap : Gap)

/-- The text around the place. -/
def text : List Char :=
  gap.before ++ (gap.run ++ gap.after)

/-- The text with an aside at the place. -/
def textWith (aside : List Char) : List Char :=
  gap.before ++ (gap.run ++ (aside ++ gap.after))

/-- The part of the run of text behind the place. -/
def runBehind : List Char :=
  gap.after.takeWhile (· != '<')

/-- Whether an aside at the place parts the value of a property element: the innermost open element
is one, and the text run shows something on both sides of the place. -/
def partsValue : Bool :=
  insideProperty (gap.opened.map String.ofList) && (showsText gap.run && showsText gap.runBehind)

end Gap

/-! ## Up to the place -/

theorem elementName_eq_ok {scopes : List Scope} {written : String} {name : ExpandedName}
    (h : elementName scopes written = .ok name) :
    name.written = written ∧ name.localName = (cutName written).2 := by
  unfold elementName at h
  dsimp only at h
  cases hspace : namespaceOf scopes ((cutName written).1.getD "") with
  | error fault => rw [hspace] at h; cases h
  | ok uri => rw [hspace] at h; cases h; exact ⟨rfl, rfl⟩

theorem spelled_of_openTag {scopes : List Scope} {content : List Char} {selfClosing : Bool}
    {tag : StartTag} (h : (openTag scopes content selfClosing).1 = .ok tag) :
    (Node.element tag).Spelled := by
  unfold openTag at h
  split at h
  · cases h
  · next attributes _ =>
    have htag : resolveTag (scopeOf attributes :: scopes)
      (String.ofList (tagName content)) attributes selfClosing = .ok tag := h
    unfold resolveTag at htag
    split at htag
    · cases htag
    · next name hname =>
      cases hattributes : resolveAttributes (scopeOf attributes :: scopes) attributes with
      | error fault => rw [hattributes] at htag; cases htag
      | ok resolved =>
        rw [hattributes] at htag
        cases htag
        obtain ⟨hwritten, hlocal⟩ := elementName_eq_ok hname
        show name.localName = (cutName name.written).2
        rw [hlocal, hwritten]

theorem spelled_nodeOf {scopes : List Scope} {event : Event} {node : Node}
    (h : (Cursor.nodeOf scopes event).1 = .ok (some node)) : node.Spelled := by
  cases event with
  | startTag content =>
    obtain ⟨tag, htag, heq⟩ := Cursor.elementNode_eq_ok h
    cases heq
    exact spelled_of_openTag htag
  | emptyTag content =>
    obtain ⟨tag, htag, heq⟩ := Cursor.elementNode_eq_ok h
    cases heq
    exact spelled_of_openTag htag
  | endTag name => cases h; trivial
  | text raw => rcases Cursor.textNode_eq_ok h with heq | ⟨content, heq⟩ <;> cases heq <;> trivial
  | characterData body => cases h; trivial
  | aside => cases h
  | finished => cases h

section Before

variable {divided : Bool} {opened : List (List Char)} {scopes : List Scope} {rest other : List Char}

/-- A piece of markup comes to the same in both texts. -/
theorem interrupted_markup {rule : PieceRule} {content : List Char}
    (hmarkup : IsMarkup rule content)
    (hbehind : ∀ scopes, NodeFeed.Interrupted divided
      ((openBehind opened content).map String.ofList)
        (nodesAt (openBehind opened content) scopes rest)
        (nodesAt (openBehind opened content) scopes other)) :
    NodeFeed.Interrupted divided (opened.map String.ofList)
      (nodesAt opened scopes ('<' :: content ++ '>' :: rest))
      (nodesAt opened scopes ('<' :: content ++ '>' :: other)) := by
  rcases hmarkup.settles opened with ⟨fault, hfault⟩ | ⟨event, hcomes⟩
  · rw [nodesAt_of_fault hmarkup hfault, nodesAt_of_fault hmarkup hfault]
    exact .fault _ _ _ _
  · rw [nodesAt_of_comes hmarkup hcomes, nodesAt_of_comes hmarkup hcomes]
    rcases hnode : (Cursor.nodeOf scopes event).1 with fault | _ | node
    · exact .fault _ _ _ _
    · -- nothing came of it, so nothing was opened or closed
      have hsame : openBehind opened content = opened := by
        rcases Cursor.quiet_of_nodeOf hnode with rfl | rfl
        · exact hcomes.moves
        · exact absurd rfl hcomes.unfinished
      rw [hsame] at hbehind ⊢
      exact hbehind _
    · have hnames := (Cursor.nodeOf_moves hcomes.moves hnode).2
      refine .node _ _ (spelled_nodeOf hnode) ?_
      rw [← hnames]
      exact hbehind _

/-- A run of text in front of markup comes to the same in both texts. -/
theorem interrupted_run {run : List Char} (hplain : '<' ∉ run)
    (hbehind : NodeFeed.Interrupted divided (opened.map String.ofList)
      (nodesAt opened scopes ('<' :: rest)) (nodesAt opened scopes ('<' :: other))) :
    NodeFeed.Interrupted divided (opened.map String.ofList)
      (nodesAt opened scopes (run ++ '<' :: rest))
        (nodesAt opened scopes (run ++ '<' :: other)) := by
  by_cases hempty : run = []
  · subst hempty
    exact hbehind
  · rw [nodesAt_run hempty hplain (endsRun_markup rest),
      nodesAt_run hempty hplain (endsRun_markup other)]
    cases hexpand : unescape run with
    | error fault =>
      rw [textNode_of_fault hexpand]
      exact .fault _ _ _ _
    | ok content =>
      rw [textNode_of_expansion hexpand]
      have hnode : (Cursor.nodeOf scopes (.text run)).1 = .ok (some (runNode content)) :=
        textNode_of_expansion hexpand
      have hmoves : (Event.text run).Moves opened opened := rfl
      refine .node _ _ (spelled_nodeOf hnode) ?_
      rw [← (Cursor.nodeOf_moves hmoves hnode).2]
      exact hbehind

/-- What stands before the place comes to the same in both texts. -/
theorem Complete.interrupted {before : List Char} (h : Complete opened before)
    {rest other : List Char}
    (hbehind : ∀ scopes, NodeFeed.Interrupted divided (opened.map String.ofList)
      (nodesAt opened scopes rest) (nodesAt opened scopes other)) :
    NodeFeed.Interrupted divided [] (nodesAt [] [] (before ++ rest))
      (nodesAt [] [] (before ++ other)) := by
  induction h generalizing rest other with
  | nil => exact hbehind []
  | @piece opened before run rule content _ plain markup ih =>
    have hcut : ∀ tail : List Char, before ++ (run ++ ('<' :: content ++ ['>'])) ++ tail =
        before ++ (run ++ ('<' :: content ++ '>' :: tail)) := by
      intro tail
      simp
    rw [hcut, hcut]
    exact ih fun scopes => interrupted_run plain (interrupted_markup markup hbehind)

end Before

/-! ## At the place -/

theorem showsText_of_expansion {raw content : List Char} (h : unescape raw = .ok content) :
    showsText raw = !Text.isAllBlank content := by
  rw [showsText, h]

theorem showsText_nil : showsText [] = false := rfl

/-- A run of text that an aside parts outside of references. -/
theorem interrupted_run_parted {opened : List String} {run behind : List Char}
    (huncut : ¬ CutsReference run behind) (f : NodeFeed) :
    NodeFeed.Interrupted (insideProperty opened && (showsText run && showsText behind)) opened
      (.lead (Cursor.textNode (run ++ behind)) f)
      (.lead (Cursor.textNode run) (.lead (Cursor.textNode behind) f)) := by
  have hexpand := unescape_append huncut
  cases hfirst : unescape run with
  | error fault =>
    rw [hfirst] at hexpand
    cases hboth : unescape (run ++ behind) with
    | ok content => rw [hboth] at hexpand; cases hexpand
    | error both =>
      rw [textNode_of_fault hboth, textNode_of_fault hfirst]
      exact .fault _ _ _ _
  | ok first =>
    rw [textNode_of_expansion hfirst]
    cases hsecond : unescape behind with
    | error fault =>
      rw [hfirst, hsecond] at hexpand
      cases hboth : unescape (run ++ behind) with
      | ok content => rw [hboth] at hexpand; cases hexpand
      | error both =>
        rw [textNode_of_fault hboth, textNode_of_fault hsecond]
        exact .badText _ _ _ _ _
    | ok second =>
      rw [hfirst, hsecond] at hexpand
      cases hboth : unescape (run ++ behind) with
      | error both => rw [hboth] at hexpand; cases hexpand
      | ok content =>
        rw [hboth] at hexpand
        cases hexpand
        rw [textNode_of_expansion hboth, textNode_of_expansion hsecond]
        refine .text _ _ _ _ ?_
        rw [showsText_of_expansion hfirst, showsText_of_expansion hsecond]

namespace Gap

variable (gap : Gap)

theorem runBehind_append : gap.runBehind ++ gap.after.dropWhile (· != '<') = gap.after :=
  List.takeWhile_append_dropWhile

theorem plain_runBehind : '<' ∉ gap.runBehind := by
  intro hmem
  simpa using List.all_eq_true.1 List.all_takeWhile _ hmem

/-- A reference that is cut within the run is cut within the text. -/
theorem uncut_runBehind : ¬ CutsReference gap.run gap.runBehind := by
  rintro ⟨before, name, rest, after, c, hrun, hbehind, hrest⟩
  refine gap.uncut ⟨before, name, rest, after ++ gap.after.dropWhile (· != '<'), c, hrun, ?_, hrest⟩
  have happend := gap.runBehind_append
  rw [hbehind, List.append_assoc] at happend
  exact happend.symm

theorem interrupted_here {aside : List Char} (h : IsAside aside) (scopes : List Scope) :
    NodeFeed.Interrupted gap.partsValue (gap.opened.map String.ofList)
      (nodesAt gap.opened scopes (gap.run ++ gap.after))
      (nodesAt gap.opened scopes (gap.run ++ (aside ++ gap.after))) := by
  have hends : EndsRun (aside ++ gap.after) := by
    obtain ⟨rule, content, rfl, -, -⟩ := h.comes
    exact endsRun_markup _
  by_cases hrun : gap.run = []
  · have hwhole : gap.partsValue = false := by
      rw [partsValue, hrun, showsText_nil, Bool.false_and, Bool.and_false]
    rw [hrun, List.nil_append, List.nil_append, nodesAt_aside h]
    exact .between _ hwhole
  · rw [nodesAt_run hrun gap.plain hends, nodesAt_aside h]
    have hafter := endsRun_dropWhile gap.after
    by_cases hbehind : gap.runBehind = []
    · -- the run ends at the place
      have hwhole : gap.partsValue = false := by
        rw [partsValue, hbehind, showsText_nil, Bool.and_false, Bool.and_false]
      have hrest : gap.after.dropWhile (· != '<') = gap.after := by
        have happend := gap.runBehind_append
        rwa [hbehind, List.nil_append] at happend
      rw [hrest] at hafter
      rw [nodesAt_run hrun gap.plain hafter]
      exact .between _ hwhole
    · have hwhole : gap.run ++ gap.runBehind ≠ [] :=
        fun heq => hrun (List.append_eq_nil_iff.1 heq).1
      have hplain : '<' ∉ gap.run ++ gap.runBehind := by
        rw [List.mem_append, not_or]
        exact ⟨gap.plain, gap.plain_runBehind⟩
      rw [← gap.runBehind_append, ← List.append_assoc, nodesAt_run hwhole hplain hafter,
        nodesAt_run hbehind gap.plain_runBehind hafter]
      exact interrupted_run_parted gap.uncut_runBehind _

/-- **The nodes of a document with one more aside.** -/
theorem interrupted {aside : List Char} (h : IsAside aside) :
    NodeFeed.Interrupted gap.partsValue [] (nodesAt [] [] gap.text)
      (nodesAt [] [] (gap.textWith aside)) :=
  gap.complete.interrupted fun scopes => gap.interrupted_here h scopes

end Gap

/-- The feed of a document, without places; a byte order mark is no part of the text that is
read. -/
theorem placeless_ofText (cs : List Char) :
    (NodeFeed.ofText cs).placeless = nodesAt [] [] (Reader.ofText cs).rest := by
  have hreader : (Cursor.ofText cs).reader.At [] (Reader.ofText cs).rest := by
    refine ⟨?_, rfl, ?_⟩
    · show (Reader.ofText cs).opened = []
      unfold Reader.ofText
      split <;> rfl
    · show (Reader.ofText cs).halted = false
      unfold Reader.ofText
      split <;> rfl
  exact Cursor.placeless_feed_at hreader

end MarkupForms.Markup
