import MarkupForms.Markup.Entity

/-!
# Attributes of a tag

The content of a tag is its name, up to the first space, and the attributes behind it: a key, an
equals sign, a quoted value. Spaces may stand around the equals sign, none is needed between
attributes, and no key may occur twice. Positions in messages are byte offsets into the content.
-/

namespace MarkupForms.Markup

/-- The four characters that separate the parts of a tag. -/
def isSpace (c : Char) : Bool :=
  c == ' ' || c == '\t' || c == '\n' || c == '\r'

/-- Why an attribute cannot be read. -/
inductive AttributeFault where
  | noEquals (position : Nat)
  | duplicate (position previous : Nat)
  | noValue (position : Nat)
  | notQuoted (position : Nat)
  | noClosingQuote (position : Nat) (quote : Char)
  deriving Repr, DecidableEq

/-- The text of an attribute fault. -/
def AttributeFault.message : AttributeFault → String
  | .noEquals position =>
    "position " ++ Decimal.ofNat position ++
      ": attribute key must be directly followed by `=` or space"
  | .duplicate position previous =>
    "position " ++ Decimal.ofNat position ++
      ": duplicated attribute, previous declaration at position " ++ Decimal.ofNat previous
  | .noValue position =>
    "position " ++ Decimal.ofNat position ++ ": `=` must be followed by an attribute value"
  | .notQuoted position =>
    "position " ++ Decimal.ofNat position ++
      ": attribute value must be enclosed in `\"` or `'`"
  | .noClosingQuote position quote =>
    "position " ++ Decimal.ofNat position ++ ": missing closing quote `" ++
      String.singleton quote ++ "` in attribute value"

/-- An attribute as it is written, and the offset of its key. -/
structure RawAttribute where
  key : List Char
  value : List Char
  position : Nat
  deriving Repr, DecidableEq

/-- The text from which attributes are read, and its offset. -/
structure Tail where
  offset : Nat
  rest : List Char
  deriving Repr, DecidableEq

/-- The tail behind the characters at its start that satisfy `p`, and those characters. -/
def Tail.span (p : Char → Bool) (tail : Tail) : List Char × Tail :=
  let taken := tail.rest.takeWhile p
  (taken, ⟨tail.offset + byteLength taken, tail.rest.dropWhile p⟩)

/-- The tail without the spaces at its start. -/
def Tail.skipSpace (tail : Tail) : Tail :=
  (tail.span isSpace).2

/-- The quoted value at the start of a tail, and the tail behind the closing quote. -/
def readValue (tail : Tail) : Except AttributeFault (List Char × Tail) :=
  match tail.rest with
  | [] => .error (.noValue tail.offset)
  | quote :: rest =>
    if quote = '"' || quote = '\'' then
      let (value, behind) := Tail.span (· != quote) ⟨tail.offset + 1, rest⟩
      match behind.rest with
      | [] => .error (.noClosingQuote behind.offset quote)
      | _ :: after => .ok (value, ⟨behind.offset + 1, after⟩)
    else .error (.notQuoted tail.offset)

/-- The attribute at the start of a tail, which begins with the first character of the key, after
the attributes `earlier`. That first character belongs to the key whatever it is. -/
def readAttribute (earlier : List RawAttribute) (first : Char) (tail : Tail) :
    Except AttributeFault (RawAttribute × Tail) :=
  let position := tail.offset - first.utf8Size
  let (more, behind) := tail.span fun c => c != '=' && !isSpace c
  let key := first :: more
  let equals := behind.skipSpace
  match equals.rest with
  | '=' :: rest =>
    match earlier.find? (·.key == key) with
    | some previous => .error (.duplicate position previous.position)
    | none =>
      match readValue (Tail.skipSpace ⟨equals.offset + 1, rest⟩) with
      | .error fault => .error fault
      | .ok (value, after) => .ok (⟨key, value, position⟩, after)
  | _ => .error (.noEquals equals.offset)

theorem length_dropWhile_le {α : Type} (p : α → Bool) (l : List α) :
    (l.dropWhile p).length ≤ l.length :=
  (List.dropWhile_sublist p).length_le

theorem Tail.length_span_le (p : Char → Bool) (tail : Tail) :
    (tail.span p).2.rest.length ≤ tail.rest.length :=
  length_dropWhile_le p tail.rest

/-- A value leaves less to be read. -/
theorem readValue_length {tail after : Tail} {value : List Char}
    (h : readValue tail = .ok (value, after)) : after.rest.length < tail.rest.length := by
  unfold readValue at h
  split at h
  · simp at h
  · next quote rest hrest =>
    split at h
    · dsimp only at h
      split at h
      · simp at h
      · next q r hq =>
        simp only [Except.ok.injEq, Prod.mk.injEq] at h
        obtain ⟨_, rfl⟩ := h
        have := Tail.length_span_le (· != quote) ⟨tail.offset + 1, rest⟩
        simp only [hq, List.length_cons] at this
        simp only [hrest, List.length_cons]
        omega
    · simp at h

/-- An attribute leaves less to be read than stood behind its first character. -/
theorem readAttribute_length {earlier : List RawAttribute} {first : Char} {tail after : Tail}
    {found : RawAttribute} (h : readAttribute earlier first tail = .ok (found, after)) :
    after.rest.length < tail.rest.length := by
  unfold readAttribute at h
  dsimp only at h
  split at h
  · next rest hrest =>
    split at h
    · simp at h
    · split at h
      · simp at h
      · next value after' hv =>
        simp only [Except.ok.injEq, Prod.mk.injEq] at h
        obtain ⟨_, rfl⟩ := h
        have h1 := readValue_length hv
        have h2 := Tail.length_span_le isSpace
          ⟨(tail.span fun c => c != '=' && !isSpace c).2.skipSpace.offset + 1, rest⟩
        have h3 := Tail.length_span_le isSpace (tail.span fun c => c != '=' && !isSpace c).2
        have h4 := Tail.length_span_le (fun c => c != '=' && !isSpace c) tail
        simp only [Tail.skipSpace] at h1 h2 h3 hrest
        simp only [hrest, List.length_cons] at h3
        omega
  · simp at h

/-- Why the attributes of a tag cannot be taken: a bad attribute, or a bad value of a good one. -/
inductive TagFault where
  | badAttribute (fault : AttributeFault)
  | badValue (key : String) (fault : EscapeFault)
  deriving Repr, DecidableEq

/-- The attributes that follow `earlier`, the values unescaped one by one. -/
def readAttributes (earlier : List RawAttribute) (tail : Tail) :
    Except TagFault (List (String × String)) :=
  match _hspace : tail.skipSpace.rest with
  | [] => .ok []
  | first :: rest =>
    match _hread : readAttribute earlier first
        ⟨tail.skipSpace.offset + first.utf8Size, rest⟩ with
    | .error fault => .error (.badAttribute fault)
    | .ok (found, after) =>
      let key := String.ofList found.key
      match unescape found.value with
      | .error fault => .error (.badValue key fault)
      | .ok value =>
        match readAttributes (earlier ++ [found]) after with
        | .error fault => .error fault
        | .ok others => .ok ((key, String.ofList value) :: others)
termination_by tail.rest.length
decreasing_by
  have h1 := readAttribute_length _hread
  have h2 := Tail.length_span_le isSpace tail
  simp only [Tail.skipSpace] at _hspace
  simp only [_hspace, List.length_cons] at h2
  simp only at h1
  omega

/-- The name at the start of the content of a tag. -/
def tagName (content : List Char) : List Char :=
  content.takeWhile fun c => !isSpace c

/-- The attributes in the content of a tag: keys with unescaped values, in order. -/
def tagAttributes (content : List Char) : Except TagFault (List (String × String)) :=
  readAttributes [] ((Tail.span (fun c => !isSpace c) ⟨0, content⟩).2)

end MarkupForms.Markup
