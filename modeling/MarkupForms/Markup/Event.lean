import MarkupForms.Markup.Attribute
import MarkupForms.Text.Ascii

/-!
# Markup events

A document is read as a sequence of events: runs of text, tags, character data, and asides
(comments, processing instructions, document type declarations). A lexical fault, where the end of a
piece of markup cannot be found, ends the reading for good: from then on there is nothing but the
end. After an ill-formed piece, such as an end tag that closes another element, reading goes on
behind it.

An element that is still open at the end is no fault here. Offsets count bytes; a byte order mark at
the start is passed over and not counted.
-/

namespace MarkupForms.Markup

/-- Markup whose end cannot be found. -/
inductive LexicalFault where
  | unknownMarkup
  | unclosedComment
  | unclosedCharacterData
  | unclosedDoctype
  | unclosedInstruction
  | unclosedTag
  deriving Repr, DecidableEq

/-- The text of a lexical fault. -/
def LexicalFault.message : LexicalFault → String
  | .unknownMarkup => "unknown or missed symbol in markup"
  | .unclosedComment => "comment not closed: `-->` not found before end of input"
  | .unclosedCharacterData => "CDATA not closed: `]]>` not found before end of input"
  | .unclosedDoctype => "DOCTYPE not closed: `>` not found before end of input"
  | .unclosedInstruction =>
    "processing instruction or xml declaration not closed: `?>` not found before end of input"
  | .unclosedTag => "tag not closed: `>` not found before end of input"

/-- Markup that is complete but does not fit. -/
inductive FormFault where
  | mismatchedEnd (expected found : String)
  | unmatchedEnd (name : String)
  | missingDoctypeName
  deriving Repr, DecidableEq

/-- The text of a form fault. -/
def FormFault.message : FormFault → String
  | .mismatchedEnd expected found =>
    "expected `</" ++ expected ++ ">`, but `</" ++ found ++ ">` was found"
  | .unmatchedEnd name => "close tag `</" ++ name ++ ">` does not match any open tag"
  | .missingDoctypeName =>
    "`<!DOCTYPE>` declaration does not contain a name of a document type"

/-- Why the next event cannot be read. -/
inductive ReadFault where
  | lexical (fault : LexicalFault)
  | form (fault : FormFault)
  deriving Repr, DecidableEq

/-- The text of a read fault. -/
def ReadFault.message : ReadFault → String
  | .lexical fault => "syntax error: " ++ fault.message
  | .form fault => "ill-formed document: " ++ fault.message

/-- A piece of a document. The content of a tag is what stands between its brackets, without the
slash of an end tag or of a tag that closes itself. -/
inductive Event where
  | startTag (content : List Char)
  | emptyTag (content : List Char)
  | endTag (name : List Char)
  | text (raw : List Char)
  | characterData (body : List Char)
  | aside
  | finished
  deriving Repr, DecidableEq

/-! ## Finding the end of a piece of markup -/

/-- The text before the first `>` at which the markup may close, and the text behind it. `closes` is
asked with the characters before the bracket, last one first. -/
def cutAtClose (closes : List Char → Bool) : (seen rest : List Char) →
    Option (List Char × List Char)
  | _, [] => none
  | seen, c :: cs =>
    if c = '>' && closes seen then some (seen.reverse, cs) else cutAtClose closes (c :: seen) cs

/-- A comment closes behind two hyphens that are not those of its opening. -/
def closesComment (seen : List Char) : Bool :=
  ['-', '-'].isPrefixOf seen && 4 < seen.length

/-- Character data closes behind two brackets. -/
def closesCharacterData (seen : List Char) : Bool :=
  [']', ']'].isPrefixOf seen

/-- A document type declaration closes where every inner `<` has met its `>`. -/
def closesDoctype (seen : List Char) : Bool :=
  seen.count '<' == seen.count '>'

/-- An instruction closes behind a question mark. -/
def closesInstruction (seen : List Char) : Bool :=
  seen.head? == some '?'

/-- The quote that is open after one more character. -/
def quoteAfter (quote : Option Char) (c : Char) : Option Char :=
  match quote with
  | none => if c = '"' || c = '\'' then some c else none
  | some q => if c = q then none else some q

/-- A tag closes outside of quotes. -/
def closesTag (seen : List Char) : Bool :=
  (seen.foldr (fun c quote => quoteAfter quote c) none).isNone

theorem cutAtClose_length {closes : List Char → Bool} {seen rest body behind : List Char}
    (h : cutAtClose closes seen rest = some (body, behind)) : behind.length < rest.length := by
  induction rest generalizing seen with
  | nil => simp [cutAtClose] at h
  | cons c cs ih =>
    unfold cutAtClose at h
    split at h
    · simp only [Option.some.injEq, Prod.mk.injEq] at h
      simp [← h.2]
    · have := ih h
      simp only [List.length_cons]
      omega

/-! ## The reader -/

/-- A document on the way: what is unread and its offset, the names of the open elements, innermost
first, and whether a lexical fault has ended the reading. -/
structure Reader where
  rest : List Char
  offset : Nat
  opened : List (List Char)
  halted : Bool
  deriving Repr, DecidableEq

/-- The reader at the start of a document. -/
def Reader.ofText (cs : List Char) : Reader :=
  match cs with
  | '\ufeff' :: rest => ⟨rest, 0, [], false⟩
  | _ => ⟨cs, 0, [], false⟩

/-- The reader behind a lexical fault, `offset` being where it stopped. -/
def Reader.halt (r : Reader) (offset : Nat) : Reader :=
  { r with rest := [], offset := offset, halted := true }

/-- The reader behind the next `bytes` bytes, `behind` being what is left. -/
def Reader.skipTo (r : Reader) (bytes : Nat) (behind : List Char) : Reader :=
  { r with rest := behind, offset := r.offset + bytes }

/-- The reader at the end of the document. -/
def Reader.toEnd (r : Reader) : Reader :=
  r.halt (r.offset + byteLength r.rest)

/-- What comes of a piece of markup: an event or a fault, and the reader behind it. -/
abbrev Reading := Except ReadFault Event × Reader

/-! Each of the following takes the content of a piece of markup, which begins behind its `<` and
ends before its `>`, and the reader behind that piece. -/

/-- A start tag. -/
def Reader.startTag (content : List Char) (next : Reader) : Reading :=
  match content.reverse with
  | '/' :: inner => (.ok (.emptyTag inner.reverse), next)
  | _ => (.ok (.startTag content), { next with opened := tagName content :: next.opened })

/-- The name in an end tag, whose content begins with a slash. Spaces behind the name do not belong
to it, unless there is nothing else. -/
def endName (content : List Char) : List Char :=
  let name := content.drop 1
  match name.reverse.dropWhile isSpace with
  | [] => name
  | kept => kept.reverse

/-- An end tag. The innermost open element counts as closed even if its name is another. -/
def Reader.endTag (content : List Char) (next : Reader) : Reading :=
  let name := endName content
  match next.opened with
  | [] => (.error (.form (.unmatchedEnd (String.ofList name))), next)
  | expected :: outer =>
    let closed := { next with opened := outer }
    if name = expected then (.ok (.endTag name), closed)
    else
      (.error (.form (.mismatchedEnd (String.ofList expected) (String.ofList name))), closed)

/-- An instruction; its content begins with a question mark. -/
def Reader.instruction (content : List Char) (next : Reader) : Reading :=
  if 1 < content.length then (.ok .aside, next)
  else (.error (.lexical .unclosedInstruction), next.halt next.offset)

/-- A comment; its content begins with an exclamation mark, as for the next two. -/
def Reader.comment (content : List Char) (next : Reader) : Reading :=
  if "!--".toList.isPrefixOf content then (.ok .aside, next)
  else (.error (.lexical .unclosedComment), next.halt next.offset)

/-- Character data: what stands between the inner brackets. -/
def Reader.characterData (content : List Char) (next : Reader) : Reading :=
  if "![CDATA[".toList.isPrefixOf content then
    (.ok (.characterData ((content.drop 8).take (content.length - 10))), next)
  else (.error (.lexical .unclosedCharacterData), next.halt next.offset)

/-- A document type declaration, which has to have a name. -/
def Reader.doctype (content : List Char) (next : Reader) : Reading :=
  if "!doctype".toList.isPrefixOf (content.map Text.lowerAscii) then
    if (content.drop 8).all isSpace then (.error (.form .missingDoctypeName), next)
    else (.ok .aside, next)
  else (.error (.lexical .unclosedDoctype), next.halt next.offset)

/-- The piece of markup that begins behind a `<`, up to the bracket at which `closes` lets it
end. -/
def Reader.piece (r : Reader) (closes : List Char → Bool) (unclosed : LexicalFault)
    (finish : List Char → Reader → Reading) (markup : List Char) : Reading :=
  match cutAtClose closes [] markup with
  | some (content, behind) => finish content (r.skipTo (byteLength content + 2) behind)
  | none => (.error (.lexical unclosed), r.toEnd)

/-- The markup that begins behind a `<`. -/
def Reader.markup (r : Reader) : List Char → Reading
  | '!' :: cs =>
    match cs.head? with
    | some '-' => r.piece closesComment .unclosedComment comment ('!' :: cs)
    | some '[' => r.piece closesCharacterData .unclosedCharacterData characterData ('!' :: cs)
    | some 'D' | some 'd' => r.piece closesDoctype .unclosedDoctype doctype ('!' :: cs)
    | _ => (.error (.lexical .unknownMarkup), r.halt (r.offset + 1))
  | '/' :: cs => r.piece closesTag .unclosedTag endTag ('/' :: cs)
  | '?' :: cs => r.piece closesInstruction .unclosedInstruction instruction ('?' :: cs)
  | cs => r.piece closesTag .unclosedTag startTag cs

/-- The next event, and the reader behind it. -/
def Reader.next (r : Reader) : Reading :=
  if r.halted then (.ok .finished, r)
  else
    match r.rest with
    | [] => (.ok .finished, r.halt r.offset)
    | '<' :: cs => r.markup cs
    | cs =>
      let taken := cs.takeWhile (· != '<')
      (.ok (.text taken), r.skipTo (byteLength taken) (cs.dropWhile (· != '<')))

/-! ## Reading comes to an end -/

@[simp] theorem Reader.rest_skipTo (r : Reader) (bytes : Nat) (behind : List Char) :
    (r.skipTo bytes behind).rest = behind := rfl

/-- A finishing step that yields an event goes on exactly where it was told to. -/
def GoesOn (finish : List Char → Reader → Reading) : Prop :=
  ∀ content next event, (finish content next).1 = .ok event →
    (finish content next).2.rest = next.rest

theorem Reader.goesOn_startTag : GoesOn startTag := by
  intro content next event _
  unfold Reader.startTag
  split <;> rfl

theorem Reader.goesOn_endTag : GoesOn endTag := by
  intro content next event h
  unfold Reader.endTag at h ⊢
  dsimp only at h ⊢
  split at h
  · simp at h
  · exact apply_ite (fun reading : Reading => reading.2.rest) .. |>.trans (ite_self _)

theorem Reader.goesOn_instruction : GoesOn instruction := by
  intro content next event h
  unfold Reader.instruction at h ⊢
  split at h
  · next hc => rw [if_pos hc]
  · simp at h

theorem Reader.goesOn_comment : GoesOn comment := by
  intro content next event h
  unfold Reader.comment at h ⊢
  split at h
  · next hc => rw [if_pos hc]
  · simp at h

theorem Reader.goesOn_characterData : GoesOn characterData := by
  intro content next event h
  unfold Reader.characterData at h ⊢
  split at h
  · next hc => rw [if_pos hc]
  · simp at h

theorem Reader.goesOn_doctype : GoesOn doctype := by
  intro content next event h
  unfold Reader.doctype at h ⊢
  split at h
  · next hc =>
    rw [if_pos hc]
    split at h
    · simp at h
    · next hs => rw [if_neg hs]
  · simp at h

theorem Reader.piece_length {r : Reader} {closes : List Char → Bool} {unclosed : LexicalFault}
    {finish : List Char → Reader → Reading} {markup : List Char} {event : Event}
    (hfinish : GoesOn finish) (h : (r.piece closes unclosed finish markup).1 = .ok event) :
    (r.piece closes unclosed finish markup).2.rest.length < markup.length := by
  unfold Reader.piece at h ⊢
  split at h
  · next content behind hcut =>
    rw [hfinish content _ event h]
    exact cutAtClose_length hcut
  · simp at h

theorem Reader.markup_length {r : Reader} {cs : List Char} {event : Event}
    (h : (r.markup cs).1 = .ok event) : (r.markup cs).2.rest.length < cs.length := by
  unfold Reader.markup at h ⊢
  split at h
  · split at h
    · exact Reader.piece_length goesOn_comment h
    · exact Reader.piece_length goesOn_characterData h
    · exact Reader.piece_length goesOn_doctype h
    · exact Reader.piece_length goesOn_doctype h
    · simp at h
  · exact Reader.piece_length goesOn_endTag h
  · exact Reader.piece_length goesOn_instruction h
  · exact Reader.piece_length goesOn_startTag h

/-- Every event before the end takes up at least one character. -/
theorem Reader.next_length {r : Reader} {event : Event} (h : r.next.1 = .ok event)
    (hne : event ≠ .finished) : r.next.2.rest.length < r.rest.length := by
  unfold Reader.next at h ⊢
  split at h
  · simp only [Except.ok.injEq] at h; exact absurd h.symm hne
  · next hhalted =>
    rw [if_neg hhalted]
    split at h
    · simp only [Except.ok.injEq] at h; exact absurd h.symm hne
    · next cs hrest =>
      have := Reader.markup_length h
      have : r.rest.length = cs.length + 1 := by rw [hrest, List.length_cons]
      omega
    · next hnil hlt =>
      cases hr : r.rest with
      | nil => exact absurd hr hnil
      | cons c cs =>
        have hc : c ≠ '<' := fun he => hlt cs (by rw [hr, he])
        have := length_dropWhile_le (· != '<') cs
        simp only [List.dropWhile_cons, bne_iff_ne, ne_eq, hc, not_false_eq_true, if_true,
          List.length_cons, Reader.rest_skipTo]
        omega

end MarkupForms.Markup
