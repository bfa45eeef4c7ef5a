import MarkupForms.Proofs.Markup.Feed

/-!
# Complete pieces of markup

Where a piece of markup ends can be seen from the piece alone: it is cut at the same bracket
whatever follows (`cutAtClose_append`), and what comes of it depends on nothing but the names of the
open elements (`IsMarkup.comes`). So the places in the content of a document can be told without
reading what is behind them: `Complete` says of a text that it consists of runs of text, each before
a piece of markup, and which elements are open behind it.

An aside is a piece from which no node comes, and which opens and closes nothing (`IsAside.comes`).
-/

namespace MarkupForms.Markup

/-! ## Cutting -/

section Cutting

variable {closes : List Char → Bool}

/-- What follows a piece does not move its end. -/
theorem cutAtClose_append {seen cs body behind : List Char}
    (h : cutAtClose closes seen cs = some (body, behind)) (tail : List Char) :
    cutAtClose closes seen (cs ++ tail) = some (body, behind ++ tail) := by
  induction cs generalizing seen with
  | nil => cases h
  | cons c cs ih =>
    rw [List.cons_append]
    unfold cutAtClose at h ⊢
    split at h
    · next hclose =>
      cases h
      rw [if_pos hclose]
    · next hgo =>
      rw [if_neg hgo]
      exact ih h

/-- A piece ends at the first bracket at which it may. -/
theorem cutAtClose_first (closes : List Char → Bool) (content seen tail : List Char)
    (hearlier : ∀ before behind, content = before ++ '>' :: behind →
      closes (before.reverse ++ seen) = false)
    (hcloses : closes (content.reverse ++ seen) = true) :
    cutAtClose closes seen (content ++ '>' :: tail) = some (seen.reverse ++ content, tail) := by
  induction content generalizing seen with
  | nil =>
    have hend : closes seen = true := hcloses
    rw [List.nil_append, cutAtClose, List.append_nil]
    simp only [hend, Bool.and_true, decide_true, if_true]
  | cons c content ih =>
    rw [List.cons_append, cutAtClose]
    have hgo : ¬(decide (c = '>') && closes seen) = true := by
      rw [Bool.and_eq_true, decide_eq_true_iff]
      rintro ⟨rfl, hclose⟩
      have hnot : closes seen = false := hearlier [] content rfl
      rw [hnot] at hclose
      cases hclose
    rw [if_neg hgo, ih (c :: seen) ?_ ?_]
    · rw [List.reverse_cons, List.append_assoc]
      rfl
    · rintro before behind rfl
      have hbefore := hearlier (c :: before) behind rfl
      rwa [List.reverse_cons, List.append_assoc] at hbefore
    · rwa [List.reverse_cons, List.append_assoc] at hcloses

/-- What is cut off is a piece by itself. -/
theorem cutAtClose_eq_some {seen cs body behind : List Char}
    (h : cutAtClose closes seen cs = some (body, behind)) :
    ∃ content, body = seen.reverse ++ content ∧ cs = content ++ '>' :: behind ∧
      cutAtClose closes seen (content ++ ['>']) = some (body, []) := by
  induction cs generalizing seen with
  | nil => cases h
  | cons c cs ih =>
    unfold cutAtClose at h
    split at h
    · next hclose =>
      cases h
      have hbracket : c = '>' := decide_eq_true_iff.1 (Bool.and_eq_true_iff.1 hclose).1
      subst hbracket
      refine ⟨[], (List.append_nil _).symm, rfl, ?_⟩
      rw [List.nil_append, cutAtClose, if_pos hclose]
    · next hgo =>
      obtain ⟨content, hbody, rfl, hcut⟩ := ih h
      refine ⟨c :: content, ?_, rfl, ?_⟩
      · rw [hbody, List.reverse_cons, List.append_assoc]
        rfl
      · rw [List.cons_append, cutAtClose, if_neg hgo]
        exact hcut

end Cutting

/-! ## Kinds of markup -/

/-- How markup of one kind is read: where it may close, the fault if it does not, and what comes of
it. -/
structure PieceRule where
  closes : List Char → Bool
  unclosed : LexicalFault
  finish : List Char → Reader → Reading

namespace PieceRule

/-- Comments. -/
def comment : PieceRule := ⟨closesComment, .unclosedComment, Reader.comment⟩

/-- Character data. -/
def characterData : PieceRule := ⟨closesCharacterData, .unclosedCharacterData, Reader.characterData⟩

/-- Document type declarations. -/
def doctype : PieceRule := ⟨closesDoctype, .unclosedDoctype, Reader.doctype⟩

/-- Instructions. -/
def instruction : PieceRule := ⟨closesInstruction, .unclosedInstruction, Reader.instruction⟩

/-- End tags. -/
def endTag : PieceRule := ⟨closesTag, .unclosedTag, Reader.endTag⟩

/-- Start tags, also of elements without content. -/
def startTag : PieceRule := ⟨closesTag, .unclosedTag, Reader.startTag⟩

end PieceRule

/-- The rule for markup that begins with these two characters; there is none if it is of no kind. -/
def pieceRule? : (first second : Option Char) → Option PieceRule
  | some '!', some '-' => some .comment
  | some '!', some '[' => some .characterData
  | some '!', some 'D' | some '!', some 'd' => some .doctype
  | some '!', _ => none
  | some '/', _ => some .endTag
  | some '?', _ => some .instruction
  | _, _ => some .startTag

/-- Which rule it is depends on the first character, except behind an exclamation mark. -/
theorem pieceRule?_eq_some {first second : Option Char} {rule : PieceRule}
    (h : pieceRule? first second = some rule) :
    first = some '!' ∧ (rule = .comment ∨ rule = .characterData ∨ rule = .doctype) ∨
      first = some '/' ∧ rule = .endTag ∨ first = some '?' ∧ rule = .instruction ∨
      first ≠ some '!' ∧ first ≠ some '/' ∧ first ≠ some '?' ∧ rule = .startTag := by
  unfold pieceRule? at h
  split at h <;> cases h <;> simp_all

theorem pieceRule?_of_plain {first second : Option Char} (hmark : first ≠ some '!')
    (hslash : first ≠ some '/') (hquestion : first ≠ some '?') :
    pieceRule? first second = some .startTag := by
  unfold pieceRule?
  split <;> first | rfl | contradiction

theorem pieceRule?_mark_of_none {second : Option Char} (hhyphen : second ≠ some '-')
    (hbracket : second ≠ some '[') (hupper : second ≠ some 'D') (hlower : second ≠ some 'd') :
    pieceRule? (some '!') second = none := by
  unfold pieceRule?
  split <;> first | rfl | simp_all

/-- The markup behind a `<` is read by the rule for its first two characters. -/
theorem Reader.markup_eq (r : Reader) (cs : List Char) :
    r.markup cs =
      match pieceRule? cs[0]? cs[1]? with
      | some rule => r.piece rule.closes rule.unclosed rule.finish cs
      | none => (.error (.lexical .unknownMarkup), r.halt (r.offset + 1)) := by
  unfold Reader.markup
  split
  · next cs =>
    have hsecond : ('!' :: cs)[1]? = cs.head? := by rw [List.head?_eq_getElem?]; rfl
    rw [hsecond, List.getElem?_cons_zero]
    split
    · next h => rw [h]; rfl
    · next h => rw [h]; rfl
    · next h => rw [h]; rfl
    · next h => rw [h]; rfl
    · next hhyphen hbracket hupper hlower =>
      rw [pieceRule?_mark_of_none hhyphen hbracket hupper hlower]
  · rfl
  · rfl
  · next hmark hslash hquestion =>
    have hfirst : ∀ c, (∀ rest, cs ≠ c :: rest) → cs[0]? ≠ some c := by
      intro c hother h
      cases cs with
      | nil => cases h
      | cons d rest => cases h; exact hother rest rfl
    rw [pieceRule?_of_plain (hfirst _ hmark) (hfirst _ hslash) (hfirst _ hquestion)]
    rfl

/-! ## One piece -/

/-- The rule by which a content between brackets, read by itself, is one complete piece of
markup. -/
structure IsMarkup (rule : PieceRule) (content : List Char) : Prop where
  known : pieceRule? (content ++ ['>'])[0]? (content ++ ['>'])[1]? = some rule
  cut : cutAtClose rule.closes [] (content ++ ['>']) = some (content, [])

/-- Whatever follows a piece, its first two characters are of the same kind. -/
theorem pieceRule?_behind (content tail : List Char) :
    pieceRule? (content ++ '>' :: tail)[0]? (content ++ '>' :: tail)[1]? =
      pieceRule? (content ++ ['>'])[0]? (content ++ ['>'])[1]? := by
  rcases content with _ | ⟨first, _ | ⟨second, content⟩⟩ <;> rfl

/-- The names of the elements that are open behind a piece of markup, innermost first. -/
def openBehind (opened : List (List Char)) (content : List Char) : List (List Char) :=
  match content.head? with
  | some '!' | some '?' => opened
  | some '/' => opened.tail
  | _ => if content.getLast? = some '/' then opened else tagName content :: opened

theorem openBehind_of_plain {opened : List (List Char)} {content : List Char}
    (hmark : content.head? ≠ some '!') (hslash : content.head? ≠ some '/')
    (hquestion : content.head? ≠ some '?') :
    openBehind opened content =
      if content.getLast? = some '/' then opened else tagName content :: opened := by
  unfold openBehind
  split <;> first | contradiction | rfl

namespace PieceRule

variable {content : List Char} {opened behind : List (List Char)}

/-- What comes of a piece of markup behind which reading goes on: an event, with these names
open. -/
structure Comes (rule : PieceRule) (content : List Char) (opened behind : List (List Char))
    (event : Event) : Prop where
  unfinished : event ≠ .finished
  moves : event.Moves opened behind
  finish (r : Reader) : r.opened = opened →
    rule.finish content r = (.ok event, { r with opened := behind })

/-- Of a piece comes the same fault or the same event wherever it stands, as long as the same
elements are open. -/
def Settles (rule : PieceRule) (content : List Char) (opened behind : List (List Char)) : Prop :=
  (∃ fault, ∀ r : Reader, r.opened = opened → (rule.finish content r).1 = .error fault) ∨
    ∃ event, rule.Comes content opened behind event

/-- A tag that ends with a slash closes itself. -/
theorem comes_emptyTag (content : List Char) (opened : List (List Char)) :
    startTag.Comes (content ++ ['/']) opened opened (.emptyTag content) := by
  refine ⟨nofun, rfl, fun r hr => ?_⟩
  subst hr
  show Reader.startTag (content ++ ['/']) r = _
  rw [Reader.startTag, List.reverse_append, List.reverse_singleton, List.singleton_append]
  simp only [List.reverse_reverse]

/-- Any other tag opens an element. -/
theorem comes_startTag (hopens : content.getLast? ≠ some '/') :
    startTag.Comes content opened (tagName content :: opened) (.startTag content) := by
  refine ⟨nofun, rfl, fun r hr => ?_⟩
  subst hr
  show Reader.startTag content r = _
  unfold Reader.startTag
  split
  · next h =>
    rw [← List.head?_reverse, h] at hopens
    exact absurd rfl hopens
  · rfl

/-- An end tag closes the innermost element if it has its name. -/
theorem comes_endTag : endTag.Comes content (endName content :: opened) opened
    (.endTag (endName content)) := by
  refine ⟨nofun, rfl, fun r hr => ?_⟩
  show Reader.endTag content r = _
  simp only [Reader.endTag, hr, if_true]

theorem settles_startTag :
    startTag.Settles content opened
      (if content.getLast? = some '/' then opened else tagName content :: opened) := by
  right
  by_cases hslash : content.getLast? = some '/'
  · rw [if_pos hslash]
    obtain ⟨inner, rfl⟩ := List.getLast?_eq_some_iff.1 hslash
    exact ⟨.emptyTag inner, comes_emptyTag inner opened⟩
  · rw [if_neg hslash]
    exact ⟨.startTag content, comes_startTag hslash⟩

theorem settles_endTag : endTag.Settles content opened opened.tail := by
  cases opened with
  | nil =>
    left
    refine ⟨.form (.unmatchedEnd (String.ofList (endName content))), fun r hr => ?_⟩
    show (Reader.endTag content r).1 = _
    rw [Reader.endTag, hr]
  | cons expected outer =>
    by_cases hname : endName content = expected
    · right
      subst hname
      exact ⟨.endTag (endName content), comes_endTag⟩
    · left
      refine ⟨.form (.mismatchedEnd (String.ofList expected) (String.ofList (endName content))),
        fun r hr => ?_⟩
      show (Reader.endTag content r).1 = _
      simp only [Reader.endTag, hr, hname, if_false]

/-- A kind of markup that opens and closes nothing. -/
theorem settles_of_still {rule : PieceRule}
    (h : (∃ fault, ∀ r, (rule.finish content r).1 = .error fault) ∨
      ∃ event, event ≠ .finished ∧ (∀ names, event.Moves names names) ∧
        ∀ r, rule.finish content r = (.ok event, r)) : rule.Settles content opened opened := by
  rcases h with ⟨fault, hfault⟩ | ⟨event, hne, hstill, hfinish⟩
  · exact Or.inl ⟨fault, fun r _ => hfault r⟩
  · right
    refine ⟨event, hne, hstill opened, fun r hr => ?_⟩
    subst hr
    exact hfinish r

theorem settles_instruction : instruction.Settles content opened opened := by
  apply settles_of_still
  by_cases hlong : 1 < content.length
  · exact Or.inr ⟨.aside, nofun, fun _ => rfl, fun r => if_pos hlong⟩
  · exact Or.inl ⟨.lexical .unclosedInstruction, fun r => congrArg Prod.fst (if_neg hlong)⟩

theorem settles_comment : comment.Settles content opened opened := by
  apply settles_of_still
  by_cases hbegins : "!--".toList.isPrefixOf content = true
  · exact Or.inr ⟨.aside, nofun, fun _ => rfl, fun r => if_pos hbegins⟩
  · exact Or.inl ⟨.lexical .unclosedComment, fun r => congrArg Prod.fst (if_neg hbegins)⟩

theorem settles_characterData : characterData.Settles content opened opened := by
  apply settles_of_still
  by_cases hbegins : "![CDATA[".toList.isPrefixOf content = true
  · exact Or.inr ⟨.characterData _, nofun, fun _ => rfl, fun r => if_pos hbegins⟩
  · exact Or.inl ⟨.lexical .unclosedCharacterData, fun r => congrArg Prod.fst (if_neg hbegins)⟩

theorem settles_doctype : doctype.Settles content opened opened := by
  apply settles_of_still
  by_cases hbegins : "!doctype".toList.isPrefixOf (content.map Text.lowerAscii) = true
  · by_cases hnameless : (content.drop 8).all isSpace = true
    · exact Or.inl ⟨.form .missingDoctypeName, fun r =>
        congrArg Prod.fst ((if_pos hbegins).trans (if_pos hnameless))⟩
    · exact Or.inr ⟨.aside, nofun, fun _ => rfl, fun r => (if_pos hbegins).trans (if_neg hnameless)⟩
  · exact Or.inl ⟨.lexical .unclosedDoctype, fun r => congrArg Prod.fst (if_neg hbegins)⟩

end PieceRule

/-- **A piece means the same wherever it stands**, as long as the same elements are open. -/
theorem IsMarkup.settles {rule : PieceRule} {content : List Char} (h : IsMarkup rule content)
    (opened : List (List Char)) : rule.Settles content opened (openBehind opened content) := by
  have hfirst : content ≠ [] → (content ++ ['>'])[0]? = content.head? := by
    intro hne
    cases content with
    | nil => exact absurd rfl hne
    | cons c content => rfl
  by_cases hempty : content = []
  · subst hempty
    have hrule := h.known
    cases hrule
    exact PieceRule.settles_startTag
  · have hknown := h.known
    rw [hfirst hempty] at hknown
    rcases pieceRule?_eq_some hknown with ⟨hmark, rfl | rfl | rfl⟩ | ⟨hslash, rfl⟩ |
      ⟨hquestion, rfl⟩ | ⟨hmark, hslash, hquestion, rfl⟩
    · rw [openBehind, hmark]
      exact PieceRule.settles_comment
    · rw [openBehind, hmark]
      exact PieceRule.settles_characterData
    · rw [openBehind, hmark]
      exact PieceRule.settles_doctype
    · rw [openBehind, hslash]
      exact PieceRule.settles_endTag
    · rw [openBehind, hquestion]
      exact PieceRule.settles_instruction
    · rw [openBehind_of_plain hmark hslash hquestion]
      exact PieceRule.settles_startTag

/-! ## The next event -/

/-- A reader that goes on reading, with these elements open and this text unread. -/
structure Reader.At (r : Reader) (opened : List (List Char)) (rest : List Char) : Prop where
  opened : r.opened = opened
  rest : r.rest = rest
  running : r.halted = false

/-- A text behind a run of text: the end of the document or markup. -/
def EndsRun (cs : List Char) : Prop :=
  ∀ c rest, cs = c :: rest → c = '<'

theorem endsRun_markup (tail : List Char) : EndsRun ('<' :: tail) := by
  intro c rest h
  cases h
  rfl

theorem endsRun_dropWhile (cs : List Char) : EndsRun (cs.dropWhile (· != '<')) := by
  intro c rest h
  have hne : cs.dropWhile (· != '<') ≠ [] := by rw [h]; exact List.cons_ne_nil c rest
  have hfails := List.head_dropWhile_not (· != '<') hne
  simp only [h, List.head_cons] at hfails
  simpa using hfails

namespace Reader

variable {r : Reader} {opened : List (List Char)} {rest : List Char}

theorem next_of_end (h : r.At opened []) : r.next.1 = .ok .finished := by
  unfold next
  rw [if_neg (by rw [h.running]; decide), h.rest]

/-- A run of text is one event. -/
theorem next_of_run {run : List Char} (h : r.At opened (run ++ rest)) (hne : run ≠ [])
    (hplain : '<' ∉ run) (hrest : EndsRun rest) :
    r.next.1 = .ok (.text run) ∧ r.next.2.At opened rest := by
  have hall : ∀ c ∈ run, (c != '<') = true := fun c hc => bne_iff_ne.2 fun heq => hplain (heq ▸ hc)
  have htake : (run ++ rest).takeWhile (· != '<') = run := by
    rw [List.takeWhile_append_of_pos hall]
    cases rest with
    | nil => simp
    | cons c rest => simp [hrest c rest rfl]
  have hdrop : (run ++ rest).dropWhile (· != '<') = rest := by
    rw [List.dropWhile_append_of_pos hall]
    cases rest with
    | nil => rfl
    | cons c rest => simp [hrest c rest rfl]
  have hnext : r.next = (.ok (.text run), r.skipTo (byteLength run) rest) := by
    unfold next
    rw [if_neg (by rw [h.running]; decide), h.rest]
    split
    · next heq => exact absurd (List.append_eq_nil_iff.1 heq).1 hne
    · next cs heq =>
      obtain ⟨c, run, rfl⟩ := List.exists_cons_of_ne_nil hne
      cases heq
      exact absurd (List.mem_cons_self ..) hplain
    · rw [htake, hdrop]
  rw [hnext]
  exact ⟨rfl, h.opened, rfl, h.running⟩

/-- A complete piece of markup is finished by its rule, whatever follows. -/
theorem next_of_markup {rule : PieceRule} {content : List Char}
    (h : r.At opened ('<' :: content ++ '>' :: rest)) (hmarkup : IsMarkup rule content) :
    r.next = rule.finish content (r.skipTo (byteLength content + 2) rest) := by
  have hcut : cutAtClose rule.closes [] (content ++ '>' :: rest) = some (content, rest) := by
    have happend := cutAtClose_append hmarkup.cut rest
    rw [List.append_assoc] at happend
    exact happend
  have hknown := pieceRule?_behind content rest
  rw [hmarkup.known] at hknown
  unfold next
  rw [if_neg (by rw [h.running]; decide), h.rest]
  show r.markup (content ++ '>' :: rest) = _
  rw [markup_eq, hknown]
  show r.piece rule.closes rule.unclosed rule.finish (content ++ '>' :: rest) = _
  rw [piece, hcut]

theorem next_of_fault {rule : PieceRule} {content : List Char} {fault : ReadFault}
    (h : r.At opened ('<' :: content ++ '>' :: rest)) (hmarkup : IsMarkup rule content)
    (hfault : ∀ r : Reader, r.opened = opened → (rule.finish content r).1 = .error fault) :
    r.next.1 = .error fault := by
  rw [next_of_markup h hmarkup]
  exact hfault _ h.opened

theorem next_of_comes {rule : PieceRule} {content : List Char} {behind : List (List Char)}
    {event : Event} (h : r.At opened ('<' :: content ++ '>' :: rest))
    (hmarkup : IsMarkup rule content) (hcomes : rule.Comes content opened behind event) :
    r.next.1 = .ok event ∧ r.next.2.At behind rest := by
  rw [next_of_markup h hmarkup, hcomes.finish (r.skipTo (byteLength content + 2) rest) h.opened]
  exact ⟨rfl, rfl, rfl, h.running⟩

/-- What the reader meets where it stands. -/
inductive Meets (opened : List (List Char)) : List Char → Prop where
  | finished : Meets opened []
  | run {run rest : List Char} (nonempty : run ≠ []) (plain : '<' ∉ run) (ends : EndsRun rest) :
      Meets opened (run ++ rest)
  | markup {rule : PieceRule} {content rest : List Char} (markup : IsMarkup rule content) :
      Meets opened ('<' :: content ++ '>' :: rest)
  | broken {rest : List Char} (fault : ReadFault)
      (fails : ∀ r : Reader, r.At opened rest → r.next.1 = .error fault) : Meets opened rest

theorem meets (opened : List (List Char)) (rest : List Char) : Meets opened rest := by
  cases rest with
  | nil => exact .finished
  | cons c cs =>
    by_cases hc : c = '<'
    · subst hc
      cases hrule : pieceRule? cs[0]? cs[1]? with
      | none =>
        refine .broken (.lexical .unknownMarkup) fun r h => ?_
        unfold next
        rw [if_neg (by rw [h.running]; decide), h.rest]
        show (r.markup cs).1 = _
        rw [markup_eq, hrule]
      | some rule =>
        cases hcut : cutAtClose rule.closes [] cs with
        | none =>
          refine .broken (.lexical rule.unclosed) fun r h => ?_
          unfold next
          rw [if_neg (by rw [h.running]; decide), h.rest]
          show (r.markup cs).1 = _
          rw [markup_eq, hrule]
          show (r.piece rule.closes rule.unclosed rule.finish cs).1 = _
          rw [piece, hcut]
        | some cut =>
          obtain ⟨body, behind⟩ := cut
          obtain ⟨content, hbody, rfl, hown⟩ := cutAtClose_eq_some hcut
          have hsame : body = content := hbody
          subst hsame
          have hmarkup : IsMarkup rule body :=
            ⟨(pieceRule?_behind body behind).symm.trans hrule, hown⟩
          exact .markup hmarkup
    · have hrun : c :: cs = (c :: cs.takeWhile (· != '<')) ++ cs.dropWhile (· != '<') := by
        rw [List.cons_append, List.takeWhile_append_dropWhile]
      rw [hrun]
      refine .run (List.cons_ne_nil _ _) ?_ (endsRun_dropWhile cs)
      rw [List.mem_cons, not_or]
      exact ⟨fun heq => hc heq.symm, fun hmem => by
        simpa using List.all_eq_true.1 List.all_takeWhile _ hmem⟩

end Reader

/-! ## Asides -/

/-- A comment or a processing instruction: it is what it is up to the first place at which it may
end. -/
inductive IsAside : List Char → Prop where
  | comment (body : List Char) (only : ¬ "-->".toList <:+: body) :
      IsAside ("<!--".toList ++ body ++ "-->".toList)
  | instruction (body : List Char) (only : ¬ "?>".toList <:+: '?' :: body) :
      IsAside ("<?".toList ++ body ++ "?>".toList)

/-- An end that is found before the last one is found in the text before it. -/
theorem infix_of_earlier_end {text before behind : List Char} (mark : List Char)
    (hmark : '>' ∉ mark) (h : text ++ mark = before ++ (mark ++ '>' :: behind)) :
    mark ++ ['>'] <:+: text := by
  have hcut : text ++ mark = (before ++ mark ++ ['>']) ++ behind := by rw [h]; simp
  rcases List.append_eq_append_iff.1 hcut with ⟨overlap, hoverlap, hrest⟩ | ⟨more, htext, -⟩
  · rcases List.eq_nil_or_concat overlap with rfl | ⟨shorter, last, rfl⟩
    · exact ⟨before,
        [], by
          rw [List.append_nil] at hoverlap; rw [List.append_nil, ← hoverlap, List.append_assoc]⟩
    · -- the end would overlap the mark with its bracket
      rw [List.concat_eq_append, ← List.append_assoc] at hoverlap
      have hlast : '>' = last := List.singleton_inj.1 (List.append_inj_right' hoverlap rfl)
      subst hlast
      exact absurd (by rw [hrest]; simp) hmark
  · exact ⟨before, more, by rw [htext]; simp⟩

theorem closesComment_iff {seen : List Char} :
    closesComment seen = true ↔ ∃ more, seen = '-' :: '-' :: more ∧ 2 < more.length := by
  rw [closesComment, Bool.and_eq_true, decide_eq_true_iff, List.isPrefixOf_iff_prefix]
  constructor
  · rintro ⟨⟨more, rfl⟩, hlength⟩
    refine ⟨more, rfl, ?_⟩
    simp only [List.length_append, List.length_cons, List.length_nil] at hlength
    omega
  · rintro ⟨more, rfl, hlength⟩
    refine ⟨⟨more, rfl⟩, ?_⟩
    simp only [List.length_cons]
    omega

theorem isMarkup_comment {body : List Char} (h : ¬ "-->".toList <:+: body) :
    IsMarkup .comment ("!--".toList ++ body ++ "--".toList) := by
  refine ⟨rfl, ?_⟩
  refine cutAtClose_first closesComment ("!--".toList ++ body ++ "--".toList) [] [] ?_ ?_
  · intro before behind hbefore
    rw [List.append_nil, ← Bool.not_eq_true, closesComment_iff]
    rintro ⟨more, hmore, hlength⟩
    have hreverse : before = more.reverse ++ "--".toList := by
      rw [← List.reverse_reverse before, hmore]
      simp
    subst hreverse
    -- the end lies behind the opening, so in the body
    rw [List.append_assoc, List.append_assoc] at hbefore
    rcases List.append_eq_append_iff.1 hbefore with ⟨between, hbetween, hrest⟩ |
      ⟨between, hbetween, hrest⟩
    · exact h (infix_of_earlier_end "--".toList (by decide) hrest)
    · have hlengths := congrArg List.length hbetween
      have hnone : between = [] := by
        rw [← List.length_eq_zero_iff]
        simp only [List.length_append, List.length_reverse] at hlengths
        have : "!--".toList.length = 3 := rfl
        omega
      subst hnone
      have hbody : body ++ "--".toList = [] ++ ("--".toList ++ '>' :: behind) := hrest.symm
      exact h (infix_of_earlier_end "--".toList (by decide) hbody)
  · rw [closesComment_iff]
    exact ⟨body.reverse ++ "--!".toList, by simp, by simp⟩

theorem isMarkup_instruction {body : List Char} (h : ¬ "?>".toList <:+: '?' :: body) :
    IsMarkup .instruction ('?' :: body ++ ['?']) := by
  refine ⟨rfl, ?_⟩
  refine cutAtClose_first closesInstruction ('?' :: body ++ ['?']) [] [] ?_ ?_
  · intro before behind hbefore
    rw [List.append_nil, ← Bool.not_eq_true, closesInstruction, beq_iff_eq, List.head?_reverse]
    intro hlast
    obtain ⟨more, rfl⟩ := List.getLast?_eq_some_iff.1 hlast
    rw [List.append_assoc] at hbefore
    exact h (infix_of_earlier_end ['?'] (by decide) hbefore)
  · simp [closesInstruction]

/-- **An aside is passed over** wherever it stands. -/
theorem IsAside.comes {aside : List Char} (h : IsAside aside) :
    ∃ rule content, aside = '<' :: content ++ ['>'] ∧ IsMarkup rule content ∧
      ∀ r : Reader, rule.finish content r = (.ok .aside, r) := by
  cases h with
  | comment body only =>
    refine ⟨.comment, _, ?_, isMarkup_comment only, fun r => ?_⟩
    · simp
    · show Reader.comment ("!--".toList ++ body ++ "--".toList) r = _
      exact if_pos rfl
  | instruction body only =>
    refine ⟨.instruction, _, ?_, isMarkup_instruction only, fun r => ?_⟩
    · simp
    · show Reader.instruction ('?' :: body ++ ['?']) r = _
      exact if_pos (by simp)

/-! ## Places in the content -/

/-- Runs of text and complete pieces of markup, with a piece at the end. The names are those of the
elements that are open behind it, innermost first. -/
inductive Complete : (opened : List (List Char)) → List Char → Prop where
  | nil : Complete [] []
  | piece {opened : List (List Char)} {before run : List Char} {rule : PieceRule}
      {content : List Char}
      (h : Complete opened before) (plain : '<' ∉ run) (markup : IsMarkup rule content) :
      Complete (openBehind opened content) (before ++ (run ++ ('<' :: content ++ ['>'])))

end MarkupForms.Markup
