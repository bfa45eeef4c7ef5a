/-!
# Visible text

A text that is written to a place that is no terminal loses what only a terminal understands: escape
sequences, and control characters other than blanks. An escape sequence starts with ESC. Most are
short or end with a letter; a device string or a title goes on until it is closed. A blank inside a
short sequence breaks it off and is shown.
-/

namespace MarkupForms.Text

/-- Where in an escape sequence a text stands. -/
inductive Sequence where
  /-- Outside of any sequence. -/
  | outside
  /-- Behind ESC. -/
  | opened
  /-- Behind ESC and signs that announce a final character. -/
  | announced
  /-- In a control sequence, behind `ESC [`. -/
  | control
  /-- In a title, behind `ESC ]`. -/
  | title
  /-- At the head of a device string, behind `ESC P`. -/
  | deviceHead
  /-- In a string that only its closing sign or another sequence ends. -/
  | string
  deriving Repr, DecidableEq

/-- Blanks among the control characters, which are shown. -/
def isControlBlank (c : Char) : Bool :=
  c == '\t' || c == '\n' || c == '\r' || c == Char.ofNat 0x0c

/-- Whether the encoding of a character holds the byte that closes a string. -/
def holdsClosingByte (c : Char) : Bool :=
  (String.ofList [c]).toUTF8.data.contains 0x9c

namespace Sequence

/-- What follows ESC. -/
def afterEscape (c : Char) : Sequence :=
  if c = '[' then .control
  else if c = ']' then .title
  else if c = 'P' then .deviceHead
  else if c = 'X' || c = '^' || c = '_' then .string
  else if ' ' ≤ c && c ≤ '/' then .announced
  else if '0' ≤ c && c ≤ '~' then .outside
  else .opened

/-- The place behind one more character, inside a sequence. -/
def next (place : Sequence) (c : Char) : Sequence :=
  match place with
  | .outside => .outside
  | .opened => afterEscape c
  | .announced => if '0' ≤ c && c ≤ '~' then .outside else .announced
  | .control => if '@' ≤ c && c ≤ '~' then .outside else .control
  | .title => if c = Char.ofNat 0x07 then .outside else .title
  | .deviceHead => if '@' ≤ c && c ≤ '~' then .string else .deviceHead
  | .string => if holdsClosingByte c then .outside else .string

/-- Whether a blank breaks the sequence off. -/
def isShort : Sequence → Bool
  | .outside | .opened | .announced | .control => true
  | .title | .deviceHead | .string => false

/-- Whether a character is shown, and the place behind it. ESC starts a sequence anywhere, and CAN
and SUB end one. -/
def step (place : Sequence) (c : Char) : Bool × Sequence :=
  if c = Char.ofNat 0x1b then (false, .opened)
  else if c = Char.ofNat 0x18 || c = Char.ofNat 0x1a then (false, .outside)
  else if isControlBlank c && place.isShort then (true, .outside)
  else if place = .outside then (' ' ≤ c && c ≠ Char.ofNat 0x7f, .outside)
  else (false, place.next c)

end Sequence

/-- The characters of a text that are shown, from a place on. -/
def visibleFrom : Sequence → List Char → List Char
  | _, [] => []
  | place, c :: cs =>
    let (shown, next) := place.step c
    if shown then c :: visibleFrom next cs else visibleFrom next cs

/-- What is shown of a text. -/
def visible (s : String) : String :=
  String.ofList (visibleFrom .outside s.toList)

end MarkupForms.Text
