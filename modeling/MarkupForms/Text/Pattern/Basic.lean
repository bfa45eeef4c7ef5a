import MarkupForms.Text.Alphanumeric
import MarkupForms.Text.Ascii
import MarkupForms.Text.Blank

/-!
# Patterns

Regular expressions and where they occur. A match starts and ends at a spot of a text; a pattern
leads from a spot to all the spots where a match of it can end, so that no order of preference is
needed to tell whether it occurs.
-/

namespace MarkupForms.Text

/-- What a character has to be. -/
inductive CharTest where
  | range (first last : Char)
  | digit
  | blank
  | word
  | not (test : CharTest)
  | any (tests : List CharTest)
  deriving Repr

/-- Whether a character is part of a word: alphanumeric, or the low line. -/
def isWordChar (c : Char) : Bool :=
  isAlphanumeric c || c == '_'

mutual

/-- Whether a character is what the test asks for. -/
def CharTest.holds (c : Char) : CharTest → Bool
  | .range first last => first ≤ c && c ≤ last
  | .digit => isAsciiDigit c
  | .blank => isBlank c
  | .word => isWordChar c
  | .not test => !test.holds c
  | .any tests => CharTest.anyHolds c tests

/-- Whether a character is what one of the tests asks for. -/
def CharTest.anyHolds (c : Char) : List CharTest → Bool
  | [] => false
  | test :: tests => test.holds c || CharTest.anyHolds c tests

end

/-- A regular expression. -/
inductive Pattern where
  | empty
  | char (test : CharTest)
  | seq (first second : Pattern)
  | either (left right : Pattern)
  /-- At least `least` times, and at most `most` times if that is given. -/
  | repeated (body : Pattern) (least : Nat) (most : Option Nat)
  | textStart
  | textEnd
  /-- A spot with a word character on one side only, or any other spot. -/
  | wordEdge (wanted : Bool)
  deriving Repr

/-- A spot in a text: the character before it, and what follows. -/
structure Spot where
  before : Option Char
  rest : List Char
  deriving Repr, DecidableEq

namespace Spot

/-- Whether one side of a spot only is part of a word. -/
def isWordEdge (spot : Spot) : Bool :=
  spot.before.any isWordChar != spot.rest.head?.any isWordChar

/-- The spots of the text behind a spot, from there on. -/
def following (before : Option Char) : List Char → List Spot
  | [] => [⟨before, []⟩]
  | c :: cs => ⟨before, c :: cs⟩ :: following (some c) cs

end Spot

namespace Pattern

/-- The spots after `count` steps from one of some spots. -/
def stepExactly (step : Spot → List Spot) : (count : Nat) → List Spot → List Spot
  | 0, spots => spots
  | count + 1, spots => stepExactly step count (spots.flatMap step).eraseDups

/-- The spots after at most `count` steps from one of some spots. -/
def stepAtMost (step : Spot → List Spot) : (count : Nat) → List Spot → List Spot
  | 0, spots => spots
  | count + 1, spots =>
    (spots ++ stepAtMost step count (spots.flatMap step).eraseDups).eraseDups

/-- The spots where a match from a spot can end. A repetition without a limit needs no more steps
than there are characters left, since a step that reads nothing leads nowhere new. -/
def ends : Pattern → Spot → List Spot
  | .empty, spot => [spot]
  | .char test, spot =>
    match spot.rest with
    | [] => []
    | c :: cs => if test.holds c then [⟨some c, cs⟩] else []
  | .seq first second, spot => ((ends first spot).flatMap (ends second)).eraseDups
  | .either left right, spot => (ends left spot ++ ends right spot).eraseDups
  | .repeated body least most, spot =>
    let more := (most.map (· - least)).getD spot.rest.length
    stepAtMost (ends body) (min more spot.rest.length) (stepExactly (ends body) least [spot])
  | .textStart, spot => if spot.before.isNone then [spot] else []
  | .textEnd, spot => if spot.rest.isEmpty then [spot] else []
  | .wordEdge wanted, spot => if spot.isWordEdge == wanted then [spot] else []

/-- Whether a pattern occurs somewhere in a text. -/
def occursIn (pattern : Pattern) (text : List Char) : Bool :=
  (Spot.following none text).any fun spot => !(pattern.ends spot).isEmpty

end Pattern

end MarkupForms.Text
