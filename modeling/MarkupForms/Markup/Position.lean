import MarkupForms.Decimal.Integer

/-!
# Positions in a text

A position is a line and a column, both counted from one; a column counts characters. An offset
counts bytes, so only offsets between two characters have a position. Who asks for the position of
an offset inside a character gets none, and can go no further.
-/

namespace MarkupForms.Markup

/-- A place in a text as a reader finds it. -/
structure Position where
  line : Nat
  column : Nat
  deriving Repr, DecidableEq

namespace Position

/-- The place of the first character. -/
def first : Position := ⟨1, 1⟩

/-- The place behind a character at this place. -/
def behind (p : Position) (c : Char) : Position :=
  if c = '\n' then ⟨p.line + 1, 1⟩ else ⟨p.line, p.column + 1⟩

/-- The place that is `offset` bytes further on in `cs`, which begins at this place. There is none
inside a character; behind the end there is only the end. -/
def advance? (p : Position) : (offset : Nat) → (cs : List Char) → Option Position
  | 0, _ => some p
  | _, [] => some p
  | offset, c :: cs =>
    if c.utf8Size ≤ offset then (p.behind c).advance? (offset - c.utf8Size) cs else none

/-- The position of a byte offset in a text, if the offset is not inside a character. -/
def ofOffset? (source : List Char) (offset : Nat) : Option Position :=
  first.advance? offset source

/-- The text of a position. -/
def print (p : Position) : String :=
  Decimal.ofNat p.line ++ ":" ++ Decimal.ofNat p.column

end Position

end MarkupForms.Markup
