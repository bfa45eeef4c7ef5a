import MarkupForms.Proofs.Hydration.Children
import MarkupForms.Proofs.Markup.Recovery
import MarkupForms.Proofs.Markup.Scoping

/-!
# What a property element takes as its value

White space that is written as text is left aside. Of what remains between the tags of a property
element there has to be exactly one thing, a run of text or an element that is no property element
itself; the first makes a text without blanks at its ends, the second the object that the element is
read into (`HoldsValue`). Everything else is refused, at the node that is too much or, if nothing
was found, at the end tag (`Misfilled`), and then nothing is assigned.

White space in a character data section is not left aside: it counts as a run of text, with nothing
in it behind the trimming. This is the only way to the empty text, and not how a property without a
value is meant to be treated.
-/

/-! ## Between two tags -/

namespace MarkupForms.Markup

/-- Something between two tags that is not left aside. -/
inductive ContentItem where
  | text (place : Place) (content : String)
  | element (inner : Element)

/-- Where a thing starts. -/
def ContentItem.place : ContentItem → Place
  | .text place _ => place
  | .element inner => inner.place

/-- What stands between two tags, white space left aside. -/
def Contents.items : Contents → List ContentItem
  | .none => []
  | .text place content rest => .text place content :: rest.items
  | .blank _ rest => rest.items
  | .element first rest => .element first :: rest.items

theorem Contents.firstPlace?_eq :
    (contents : Contents) → contents.firstPlace? = contents.items.head?.map ContentItem.place
  | .none | .text _ _ _ | .element _ _ => rfl
  | .blank _ rest => rest.firstPlace?_eq

end MarkupForms.Markup

namespace MarkupForms.Hydration

open Markup

/-! ## One value or none -/

section Values

/- The position of an offset in the document. -/
variable (position : Nat → Option Position)

/-- The value that a property element with these contents has, and the pass behind it. -/
inductive HoldsValue (p : Pass) : List ContentItem → RawValue → Pass → Prop
  | text (place : Place) (content : String) :
      HoldsValue p [.text place content] (.text (Text.trimmed content)) p
  | object {child : Element} {object : ObjectId} {q : Pass}
      (hplain : child.tag.isPropertyElement = false)
      (hread : evaluateElement position p none child = (.ok object, q)) :
      HoldsValue p [.element child] (.object object) q

/-- Why the property element `name`, which ends at `behind`, has no value, and the pass behind it.
All of these are complaints about the shape of the document, except those of an element that cannot
be read itself. -/
inductive Misfilled (p : Pass) (name : String) (behind : Place) : List ContentItem → MarkupError →
    Pass → Prop
  | empty : Misfilled p name behind [] (misshapen position (.emptyProperty name) behind.start) p
  | nested {child : Element} {more : List ContentItem}
      (hdotted : child.tag.isPropertyElement = true) :
      Misfilled p name behind (.element child :: more)
        (misshapen position (.nestedProperty child.tag.name.written name) child.place.start) p
  | unread {child : Element} {more : List ContentItem} {place : Place} {error : MarkupError}
      {q : Pass} (hplain : child.tag.isPropertyElement = false)
      (hread : evaluateElement position p none child = (.error (place, error), q)) :
      Misfilled p name behind (.element child :: more) error q
  | behindText {place : Place} {content : String} {second : ContentItem} {more : List ContentItem} :
      Misfilled p name behind (.text place content :: second :: more)
        (misshapen position (.repeatedValue name) second.place.start) p
  | behindObject {child : Element} {object : ObjectId} {q : Pass} {second : ContentItem}
      {more : List ContentItem} (hplain : child.tag.isPropertyElement = false)
      (hread : evaluateElement position p none child = (.ok object, q)) :
      Misfilled p name behind (.element child :: second :: more)
        (misshapen position (.repeatedValue name) second.place.start) q

variable {position} {p q : Pass} {name : String} {behind : Place} {items : List ContentItem}
  {value : RawValue} {error : MarkupError}

/-- A property element with a value is not refused. -/
theorem HoldsValue.not_misfilled (h : HoldsValue position p items value q) {after : Pass} :
    ¬ Misfilled position p name behind items error after := by
  intro hmisfilled
  cases h with
  | text place content => cases hmisfilled
  | object hplain hread =>
    cases hmisfilled with
    | nested hdotted => exact Bool.false_ne_true (hplain.symm.trans hdotted)
    | unread _ herror =>
      rw [hread] at herror
      cases herror

/-- The empty text is the value of a single text in which nothing shows. -/
theorem HoldsValue.exists_text (h : HoldsValue position p items (.text "") q) :
    ∃ place content, items = [.text place content] ∧ Text.trimmed content = "" := by
  generalize hvalue : RawValue.text "" = value at h
  cases h with
  | text place content => exact ⟨place, content, rfl, (RawValue.text.inj hvalue).symm⟩
  | object => cases hvalue

/-- There is a value or a reason why there is none. -/
theorem holdsValue_or_misfilled (p : Pass) (name : String) (behind : Place)
    (items : List ContentItem) :
    (∃ value q, HoldsValue position p items value q) ∨
    ∃ error q, Misfilled position p name behind items error q := by
  match items with
  | [] => exact .inr ⟨_, _, .empty⟩
  | [.text place content] => exact .inl ⟨_, _, .text place content⟩
  | .text place content :: second :: more => exact .inr ⟨_, _, .behindText⟩
  | .element child :: more =>
    cases hdotted : child.tag.isPropertyElement with
    | true => exact .inr ⟨_, _, .nested hdotted⟩
    | false =>
      rcases hread : evaluateElement position p none child with ⟨⟨place, error⟩ | object, q⟩
      · exact .inr ⟨_, _, .unread hdotted hread⟩
      · cases more with
        | nil => exact .inl ⟨_, _, .object hdotted hread⟩
        | cons second more => exact .inr ⟨_, _, .behindObject hdotted hread⟩

/-! ## Reading the value -/

/-- Behind a value there may be nothing that is not left aside. -/
theorem onlyValue_eq (p : Pass) (tag : StartTag) (rest : Contents) (value : RawValue) :
    onlyValue position p tag rest value =
      match rest.items with
      | [] => (.ok value, p)
      | second :: _ => misplaced position p (.repeatedValue tag.name.written) second.place := by
  unfold onlyValue
  rw [rest.firstPlace?_eq]
  cases rest.items <;> rfl

/-- White space does not matter to the value between two tags. -/
theorem evaluateSingle_eq (p : Pass) (tag : StartTag) (behind : Place) (contents : Contents) :
    evaluateSingle position p tag behind contents =
      match contents.items with
      | [] => misplaced position p (.emptyProperty tag.name.written) behind
      | .text _ content :: more =>
        match more with
        | [] => (.ok (.text (Text.trimmed content)), p)
        | second :: _ => misplaced position p (.repeatedValue tag.name.written) second.place
      | .element child :: more =>
        if child.tag.isPropertyElement then
          misplaced position p (.nestedProperty child.tag.name.written tag.name.written) child.place
        else
          (evaluateElement position p none child).andThen fun object p =>
            match more with
            | [] => (.ok (.object object), p)
            | second :: _ =>
              misplaced position p (.repeatedValue tag.name.written) second.place := by
  cases contents with
  | none => rfl
  | text place content rest => exact onlyValue_eq p tag rest _
  | blank place rest => exact evaluateSingle_eq p tag behind rest
  | element child rest =>
    rw [evaluateSingle]
    split
    · next hdotted => exact (if_pos hdotted).symm
    · next hplain =>
      refine Eq.trans ?_ (if_neg hplain).symm
      exact congrArg (Located.andThen _) (funext fun object => funext fun p =>
        onlyValue_eq p tag rest _)

variable {element : Element}

theorem evaluateValue_of_holdsValue (h : HoldsValue position p element.contents.items value q) :
    evaluateValue position p element = (.ok value, q) := by
  cases element with
  | selfClosed place tag closes => cases h
  | enclosing place tag opens contents behind =>
    rw [evaluateValue, evaluateSingle_eq]
    simp only [Element.contents] at h
    generalize contents.items = items at h
    cases h with
    | text => rfl
    | object hplain hread =>
      dsimp only
      rw [hplain, if_neg Bool.false_ne_true, hread]
      rfl

theorem evaluateValue_of_misfilled
    (h : Misfilled position p element.tag.name.written element.lastPlace element.contents.items
      error q) :
    ∃ place, evaluateValue position p element = (.error (place, error), q) := by
  cases element with
  | selfClosed place tag closes =>
    cases h
    exact ⟨place, rfl⟩
  | enclosing place tag opens contents behind =>
    rw [evaluateValue, evaluateSingle_eq]
    simp only [Element.contents] at h
    generalize contents.items = items at h
    cases h with
    | empty => exact ⟨_, rfl⟩
    | behindText => exact ⟨_, rfl⟩
    | nested hdotted => exact ⟨_, if_pos hdotted⟩
    | @unread child more found _ _ hplain hread =>
      refine ⟨found, ?_⟩
      dsimp only
      rw [hplain, if_neg Bool.false_ne_true, hread]
      rfl
    | @behindObject child object _ second more hplain hread =>
      refine ⟨second.place, ?_⟩
      dsimp only
      rw [hplain, if_neg Bool.false_ne_true, hread]
      rfl

end Values

end MarkupForms.Hydration

/-! ## Where blank text comes from -/

namespace MarkupForms

/-- A text of which trimming leaves nothing is blank. -/
theorem Text.isAllBlank_of_trimmed {cs : List Char} (h : Text.trimmed (String.ofList cs) = "") :
    Text.isAllBlank cs = true := by
  have htrim : Text.trim cs = [] := by
    have hlist := congrArg String.toList h
    rwa [Text.trimmed, String.toList_ofList, String.toList_ofList] at hlist
  have hright : ∀ c ∈ Text.trimLeft cs, Text.isBlank c = true := by
    have hnil : (Text.trimLeft cs).reverse.dropWhile Text.isBlank = [] :=
      List.reverse_eq_nil_iff.1 htrim
    exact fun c hc => List.dropWhile_eq_nil_iff.1 hnil c (List.mem_reverse.2 hc)
  rw [Text.isAllBlank, List.all_eq_true, ← @List.takeWhile_append_dropWhile _ Text.isBlank cs]
  intro c hc
  rcases List.mem_append.1 hc with hleft | hrest
  · exact List.mem_takeWhile_imp hleft
  · exact hright c hrest

namespace Markup

/-- At the place `found` of a document the reader came to a character data section with this
body. -/
def CharacterDataAt (cs : List Char) (found : Place) (body : List Char) : Prop :=
  ∃ calls, ((Cursor.ofText cs).behind calls).upcoming = .ok (.characterData body) ∧
    ((Cursor.ofText cs).behind (calls + 1)).place = found

namespace Cursor

variable {c behind : Cursor} {place : Place} {node : Node} {rest : NodeFeed}

/-- The calls behind the first one. -/
theorem behind_succ (c : Cursor) (calls : Nat) : c.behind (calls + 1) = c.next.2.behind calls := by
  induction calls with
  | zero => rfl
  | succ calls ih =>
    rw [behind, ih]
    rfl

theorem behind_behind (c : Cursor) (calls more : Nat) :
    (c.behind calls).behind more = c.behind (calls + more) := by
  induction more with
  | zero => rfl
  | succ more ih =>
    rw [behind, ih]
    rfl

/-- A text node in which nothing shows is a character data section: white space elsewhere makes no
text node. -/
theorem upcoming_of_blankText {content : String} (h : c.next.1 = .ok (some (.text content)))
    (hblank : Text.trimmed content = "") :
    ∃ body, c.upcoming = .ok (.characterData body) ∧ Text.isAllBlank body = true := by
  cases hupcoming : c.upcoming with
  | error fault =>
    have herror : c.next.1 = .error (.unreadable fault) := by
      unfold upcoming at hupcoming
      unfold next
      rcases hread : c.reader.nextContent 0 with ⟨place, fault | event, reader⟩ <;>
        rw [hread] at hupcoming <;>
        cases hupcoming
      rfl
    rw [herror] at h
    cases h
  | ok event =>
    rw [outcome_next hupcoming] at h
    cases event with
    | startTag _ | emptyTag _ =>
      obtain ⟨tag, -, heq⟩ := elementNode_eq_ok h
      cases heq
    | endTag name | aside | finished => cases h
    | characterData body =>
      cases h
      exact ⟨body, rfl, Text.isAllBlank_of_trimmed hblank⟩
    | text raw =>
      -- a run of text that is blank is white space
      replace h : textNode raw = .ok (some (.text content)) := h
      unfold textNode at h
      cases hunescape : unescape raw with
      | error fault =>
        rw [hunescape] at h
        cases h
      | ok unescaped =>
        rw [hunescape] at h
        dsimp only at h
        split at h
        · cases h
        · next hshows =>
          cases h
          exact absurd (Text.isAllBlank_of_trimmed hblank) hshows

/-- A single text between two tags in which nothing shows is a character data section. -/
theorem characterData_of_items {tail : NodeFeed} {content : String} :
    (contents : Contents) → {c : Cursor} → c.feed = contents.followedBy tail →
      contents.items = [.text place content] → Text.trimmed content = "" →
        ∃ calls body, (c.behind calls).upcoming = .ok (.characterData body) ∧
        (c.behind (calls + 1)).place = place ∧
          Text.isAllBlank body = true
  | .none, _, _, hitems, _ => by cases hitems
  | .element _ _, _, _, hitems, _ => by cases hitems
  | .text _ _ _, c, hfeed, hitems, hblank => by
    obtain ⟨hnode, hplace, -⟩ := next_of_feed hfeed
    cases (List.cons.inj hitems).1
    obtain ⟨body, hupcoming, hbody⟩ := upcoming_of_blankText hnode hblank
    exact ⟨0, body, hupcoming, hplace, hbody⟩
  | .blank _ rest, c, hfeed, hitems, hblank => by
    obtain ⟨-, -, hrest⟩ := next_of_feed hfeed
    obtain ⟨calls, body, hupcoming, hplace, hbody⟩ :=
      characterData_of_items rest hrest hitems hblank
    exact ⟨calls + 1, body, by rwa [behind_succ], by rwa [behind_succ], hbody⟩

end Cursor

theorem characterDataAt_of_items {cs : List Char} {calls : Nat} {contents : Contents}
    {tail : NodeFeed} {place : Place} {content : String}
    (hfeed : ((Cursor.ofText cs).behind calls).feed = contents.followedBy tail)
    (hitems : contents.items = [.text place content]) (hblank : Text.trimmed content = "") :
    ∃ body, CharacterDataAt cs place body ∧ Text.isAllBlank body = true := by
  obtain ⟨more, body, hupcoming, hplace, hbody⟩ :=
    Cursor.characterData_of_items contents hfeed hitems hblank
  rw [Cursor.behind_behind] at hupcoming hplace
  exact ⟨body, ⟨calls + more, hupcoming, hplace⟩, hbody⟩

end Markup

namespace Hydration

open Markup

/-- What a run has not read yet stands before a cursor on the text. -/
theorem Progress.Reaches.exists_cursor {request : LoadRequest} {text : String}
    {position : Nat → Option Position} {last : Progress}
    (h : (request.progress text).Reaches position last) :
    ∃ calls, ((Cursor.ofText text.toList).behind calls).feed = last.unread := by
  induction h with
  | start => exact ⟨0, rfl⟩
  | node _ _ ih =>
    obtain ⟨calls, hfeed⟩ := ih
    exact ⟨calls + 1, (Cursor.next_of_feed hfeed).2.2⟩

/-- If all nodes of a text have positions, so have those that a run has not read yet. -/
theorem Progress.Reaches.positioned {first last : Progress} {position other : Nat → Option Position}
    (h : first.Reaches position last) (hfirst : first.unread.Positioned other) :
    last.unread.Positioned other := by
  induction h with
  | start => exact hfirst
  | node _ _ ih => exact ih.2

/-- A load ends as the rest of its run does. -/
theorem Progress.Reaches.load_eq {request : LoadRequest} {text : String} {last : Progress}
    (h : (request.progress text).Reaches (Position.ofOffset? text.toList) last) :
    request.load text =
      let outcome := assemble (Position.ofOffset? text.toList) last.pass last.stage last.unread
      (outcome.1, outcome.2.graph) :=
  congrArg (fun outcome : Outcome ObjectId => (outcome.1, outcome.2.graph)) h.assemble_eq

/-! ## Property elements in a load -/

section Loads

variable {position : Nat → Option Position} {p q : Pass} {parent : OpenElement}
  {outer : List OpenElement} {element : Element} {property : String} {rest : NodeFeed}
  {here : Position}

/-- A property element without a position breaks the reading off. -/
theorem assemble_of_position_none {place : Place} {tag : StartTag}
    (hparent : parent.property = none) (hposition : position place.start = none) :
    assemble position p (.content parent outer) (.node place (.element tag) rest) =
      (.error .aborted, p) := by
  rw [assemble, step, hparent]
  simp only [stepElement, hposition]

/-- A property element with a value assigns it at its end. -/
theorem assemble_of_holdsValue (hparent : parent.property = none)
    (hposition : position element.place.start = some here)
    (hdotted : element.tag.isPropertyElement = true)
    (hnamed : namedProperty? parent.tag element.tag = some property) {value : RawValue}
    (h : HoldsValue position p element.contents.items value q) :
    assemble position p (.content parent outer) (element.followedBy rest) =
      match q.assign parent.object parent.type property value with
      | .error error => (.error (error.at (position element.place.start)), q)
      | .ok next => assemble position next (.content parent outer) rest := by
  rw [← outcome_assembleAt,
    assembleAt_property position p parent outer element property rest hparent hposition
    hdotted hnamed, evaluateValue_of_holdsValue h, Located.andThen_ok, assignProperty]
  cases q.assign parent.object parent.type property value with
  | error error => rfl
  | ok next => exact outcome_assembleAt position next (.content parent outer) rest

/-- A property element without a value assigns nothing, and ends the reading. -/
theorem assemble_of_misfilled (hparent : parent.property = none)
    (hposition : position element.place.start = some here)
    (hdotted : element.tag.isPropertyElement = true)
    (hnamed : namedProperty? parent.tag element.tag = some property) {error : MarkupError}
    (h : Misfilled position p element.tag.name.written element.lastPlace element.contents.items
      error q) :
    assemble position p (.content parent outer) (element.followedBy rest) = (.error error, q) := by
  obtain ⟨place, hvalue⟩ := evaluateValue_of_misfilled h
  rw [← outcome_assembleAt,
    assembleAt_property position p parent outer element property rest hparent hposition hdotted
    hnamed, hvalue]
  rfl

/-- A property element that names no property of the element around it ends the reading. -/
theorem assemble_of_foreignProperty {place : Place} {tag : StartTag}
    (hparent : parent.property = none) (hdotted : tag.isPropertyElement = true)
    (hnamed : namedProperty? parent.tag tag = none) :
    assemble position p (.content parent outer) (.node place (.element tag) rest) =
      (.error (misshapen position (.foreignProperty tag.name.written parent.tag.name.written)
        place.start), p) := by
  cases hposition : position place.start with
  | none =>
    rw [assemble_of_position_none hparent hposition, misshapen, hposition]
    rfl
  | some here =>
    rw [assemble, step, hparent]
    simp only [stepElement, hposition, hdotted, if_true, startProperty, hnamed]

end Loads

/-- **A property element holds one object or one text.** Wherever a run comes to a property element,
the load fails if it names no property of the element around it or never ends, and it breaks off if
there is no position for the property element, which happens behind a byte order mark only.
Otherwise let `items` be what stands between its tags, the white space among the text left aside.

* Either they hold a value, and then it is assigned at the end of the property element and the load
  goes on behind it; or they do not, and then nothing is assigned and the load fails for a reason
  that `Misfilled` names.
* The value is the empty text only if the one thing between the tags is a blank character data
  section. -/
theorem propertyElement_value {request : LoadRequest} {text : String} {p : Pass}
    {parent : OpenElement} {outer : List OpenElement} {place : Place} {tag : StartTag}
    {unread : NodeFeed} (hreach : (request.progress text).Reaches (Position.ofOffset? text.toList)
      ⟨p, .content parent outer, .node place (.element tag) unread⟩)
    (hparent : parent.property = none) (hdotted : tag.isPropertyElement = true) :
    let position := Position.ofOffset? text.toList
    (position place.start = none →
      request.load text = (.error .aborted, p.graph) ∧ text.toList.head? = some '\ufeff') ∧
    (namedProperty? parent.tag tag = none → request.load text =
      (.error (misshapen position (.foreignProperty tag.name.written parent.tag.name.written)
        place.start), p.graph)) ∧
    ((¬ ∃ element rest, .node place (.element tag) unread = Element.followedBy rest element) →
      ∃ error, (request.load text).1 = .error error) ∧
    ∀ property element rest, (position place.start).isSome →
      namedProperty? parent.tag tag = some property →
      .node place (.element tag) unread = Element.followedBy rest element →
      let items := element.contents.items
      (∀ value q, HoldsValue position p items value q →
        request.load text =
          match q.assign parent.object parent.type property value with
          | .error error => (.error (error.at (position place.start)), q.graph)
          | .ok next =>
            let outcome := assemble position next (.content parent outer) rest
            (outcome.1, outcome.2.graph)) ∧
      (∀ error q, Misfilled position p tag.name.written element.lastPlace items error q →
        request.load text = (.error error, q.graph)) ∧
      ((∃ value q, HoldsValue position p items value q) ↔
        ¬ ∃ error q, Misfilled position p tag.name.written element.lastPlace items error q) ∧
      ∀ q, HoldsValue position p items (.text "") q →
        ∃ found content body, items = [.text found content] ∧
        CharacterDataAt text.toList found body ∧
          Text.isAllBlank body = true := by
  intro position
  have hload := hreach.load_eq
  refine ⟨fun hposition => ⟨?_, ?_⟩, fun hnamed => ?_, fun hopen => ?_,
    fun property element rest hposition hnamed hfeed => ?_⟩
  · rw [hload, assemble_of_position_none hparent hposition]
  · by_contra hmark
    have hplace : (position place.start).isSome :=
      (hreach.positioned (NodeFeed.positioned_ofText hmark)).1
    rw [hposition] at hplace
    cases hplace
  · rw [hload, assemble_of_foreignProperty hparent hdotted hnamed]
  · rcases hassemble : assemble position p (.content parent outer)
      (.node place (.element tag) unread) with ⟨error | root, after⟩
    · exact ⟨error, by rw [hload]; exact congrArg Prod.fst hassemble⟩
    · have hmatched := hreach.matched (NodeFeed.matched_ofText text.toList)
      obtain ⟨element, rest, hfeed⟩ := exists_child_of_assemble hparent hmatched hassemble
      exact absurd ⟨element, rest, hfeed⟩ hopen
  · obtain ⟨calls, hcursor⟩ := hreach.exists_cursor
    have hbehind : unread = element.behindTag rest := by
      rw [element.followedBy_eq] at hfeed
      exact (NodeFeed.node.inj hfeed).2.2
    obtain ⟨rfl, rfl⟩ : place = element.place ∧ tag = element.tag := by
      rw [element.followedBy_eq] at hfeed
      obtain ⟨hplace, htag, -⟩ := NodeFeed.node.inj hfeed
      exact ⟨hplace, Node.element.inj htag⟩
    obtain ⟨here, hposition⟩ := Option.isSome_iff_exists.1 hposition
    refine ⟨fun value q hvalue => ?_, fun error q hmisfilled => ?_, ?_, fun q hempty => ?_⟩
    · rw [hload, hfeed, assemble_of_holdsValue hparent hposition hdotted hnamed hvalue]
      cases q.assign parent.object parent.type property value <;> rfl
    · rw [hload, hfeed, assemble_of_misfilled hparent hposition hdotted hnamed hmisfilled]
    · constructor
      · rintro ⟨value, q, hvalue⟩ ⟨error, after, hmisfilled⟩
        exact hvalue.not_misfilled hmisfilled
      · exact (holdsValue_or_misfilled p _ _ _).resolve_right
    · cases element with
      | selfClosed => cases hempty
      | enclosing place tag opens contents behind =>
        -- the nodes behind the start tag are those of the cursor behind one more call
        have hcontents : ((Cursor.ofText text.toList).behind (calls + 1)).feed =
            contents.followedBy _ :=
          (Cursor.next_of_feed hcursor).2.2.trans hbehind
        obtain ⟨found, content, hitems, hblank⟩ := hempty.exists_text
        obtain ⟨body, hdata, hbody⟩ := characterDataAt_of_items hcontents hitems hblank
        exact ⟨found, content, body, hitems, hdata, hbody⟩

/-! ## A text in which nothing shows -/

/-- A label whose text is a blank character data section behind white space. -/
def blankDataText : String :=
  "<Label><Label.Text> <![CDATA[ ]]></Label.Text></Label>"

/-- The tag of the label in `blankDataText`. -/
def plainLabelTag : StartTag :=
  ⟨⟨"Label", "Label", ""⟩, [], false⟩

/-- The property element in `blankDataText`. -/
def blankDataElement : Element :=
  .enclosing ⟨7, 0⟩ labelTextTag selfClosing_labelTextTag
    (.blank ⟨19, 0⟩ (.text ⟨20, 0⟩ " " .none)) ⟨33, 0⟩

/-- What follows the property element in `blankDataText`. -/
def blankDataRest : NodeFeed :=
  .node ⟨46, 0⟩ (.endElement "Label") (.finished ⟨54, 0⟩)

theorem blankDataText_feed : NodeFeed.ofText blankDataText.toList =
    .node ⟨0, 0⟩ (.element plainLabelTag) (blankDataElement.followedBy blankDataRest) := by
  rw [blankDataText, String.toList_ofList, NodeFeed.ofText_eq]
  decide +kernel

theorem opened_plainLabelTag :
    (openElement (Position.ofOffset? blankDataText.toList) newObjectsRequest.pass none
    plainLabelTag 0).1.toOption.map (·.object) = some ⟨0⟩ := by
  decide +kernel

/-- The pass with which the load of `blankDataText` comes to the property element. -/
def blankDataPass : Pass :=
  (openElement (Position.ofOffset? blankDataText.toList) newObjectsRequest.pass none
    plainLabelTag 0).2

/-- The label when the load of `blankDataText` comes to the property element. -/
def blankDataParent : OpenElement :=
  ⟨plainLabelTag, ⟨0⟩, Forms.label, 0, none⟩

theorem reaches_blankDataElement :
    (newObjectsRequest.progress blankDataText).Reaches (Position.ofOffset? blankDataText.toList)
      ⟨blankDataPass, .content blankDataParent [], blankDataElement.followedBy blankDataRest⟩ := by
  have hstart : (newObjectsRequest.progress blankDataText).Reaches
      (Position.ofOffset? blankDataText.toList) ⟨newObjectsRequest.pass, .prolog none,
        .node ⟨0, 0⟩ (.element plainLabelTag) (blankDataElement.followedBy blankDataRest)⟩ := by
    rw [← blankDataText_feed]
    exact .start
  obtain ⟨opened, hopened, hobject⟩ := Option.map_eq_some_iff.1 opened_plainLabelTag
  obtain ⟨p, hopen⟩ := exists_of_toOption hopened
  obtain ⟨type, resolved, taken, made, hresolve, -, -, rfl⟩ := openElement_eq_ok hopen
  cases hresolve
  cases hobject
  refine hstart.node ?_
  rw [step, startElement, hopen, blankDataPass, hopen]
  rfl

theorem load_blankDataText : (newObjectsRequest.load blankDataText).1.toOption = some ⟨0⟩ ∧
    ((newObjectsRequest.load blankDataText).2.get? ⟨0⟩ "Text").bind Value.asText? = some "" := by
  rw [LoadRequest.load_of_feed _ blankDataText_feed]
  decide +kernel

/-- In `blankDataText` the white space is left aside and the section is not: the empty text is
assigned to the label, and it comes from character data. -/
theorem propertyElement_value_blankDataText :
    (∃ next, blankDataPass.assign ⟨0⟩ Forms.label "Text" (.text "") = .ok next ∧
      newObjectsRequest.load blankDataText =
        let outcome := assemble (Position.ofOffset? blankDataText.toList)
          next (.content blankDataParent []) blankDataRest
        (outcome.1, outcome.2.graph)) ∧
    ∃ body, CharacterDataAt blankDataText.toList ⟨20, 0⟩ body ∧ Text.isAllBlank body = true := by
  obtain ⟨-, -, -, hclosed⟩ := propertyElement_value reaches_blankDataElement rfl rfl
  obtain ⟨hvalue, -, -, hempty⟩ :=
    hclosed "Text" blankDataElement blankDataRest (by decide +kernel) (by decide +kernel) rfl
  have hholds : HoldsValue (Position.ofOffset? blankDataText.toList) blankDataPass
      blankDataElement.contents.items (.text "") blankDataPass := .text ⟨20, 0⟩ " "
  refine ⟨?_, ?_⟩
  · have hload := hvalue _ _ hholds
    cases hassign : blankDataPass.assign ⟨0⟩ Forms.label "Text" (.text "") with
    | error error =>
      have hloaded := load_blankDataText.1
      rw [hload] at hloaded
      simp only [blankDataParent, hassign] at hloaded
      cases hloaded
    | ok next =>
      refine ⟨next, rfl, hload.trans ?_⟩
      simp only [blankDataParent, hassign]
  · obtain ⟨found, content, body, hitems, hdata, hbody⟩ := hempty _ hholds
    cases hitems
    exact ⟨body, hdata, hbody⟩

/-- Property elements in which nothing shows are not all refused. -/
theorem not_every_value_shows :
    ¬ ∀ (text : String) (p : Pass) (parent : OpenElement) (outer : List OpenElement)
      (element : Element) (rest : NodeFeed),
      (newObjectsRequest.progress text).Reaches (Position.ofOffset? text.toList)
        ⟨p, .content parent outer, element.followedBy rest⟩ →
      parent.property = none → element.tag.isPropertyElement = true →
      (∀ item ∈ element.contents.items, ∃ place content, item = .text place content ∧
        Text.trimmed content = "") →
      ∃ error, (newObjectsRequest.load text).1 = .error error := by
  intro law
  obtain ⟨error, herror⟩ := law _ _ _ _ _ _ reaches_blankDataElement rfl rfl fun item hitem => by
    cases List.mem_singleton.1 hitem
    exact ⟨_, _, rfl, rfl⟩
  have hloaded := load_blankDataText.1
  rw [herror] at hloaded
  cases hloaded

end Hydration

end MarkupForms
