import MarkupForms.Decimal.Integer
import MarkupForms.Text.Pattern.Basic

/-!
# Reading patterns

A pattern is written with `.` for any character but a line feed, classes between square brackets,
groups between parentheses, `|` between alternatives, `*`, `+`, `?` and counts between braces behind
what is repeated, `^` and `$` for the ends of the text, and a backslash in front of signs that stand
for themselves or of the letter of a class. What is wrong with a text is told with its place.
-/

namespace MarkupForms.Text

/-- What can be wrong with the text of a pattern. -/
inductive PatternError where
  | groupUnclosed
  | groupUnopened
  | nothingToRepeat
  | classUnclosed
  | rangeInvalid
  | escapeUnfinished
  | escapeUnknown
  | backreference
  | countUnclosed
  | countMissing
  | countsReversed
  | tooLong
  deriving Repr, DecidableEq

/-- The text of an error. -/
def PatternError.message : PatternError → String
  | .groupUnclosed => "unclosed group"
  | .groupUnopened => "unopened group"
  | .nothingToRepeat => "repetition operator missing expression"
  | .classUnclosed => "unclosed character class"
  | .rangeInvalid => "invalid character class range, the start must be <= the end"
  | .escapeUnfinished => "incomplete escape sequence, reached end of pattern prematurely"
  | .escapeUnknown => "unrecognized escape sequence"
  | .backreference => "backreferences are not supported"
  | .countUnclosed => "unclosed counted repetition"
  | .countMissing => "repetition quantifier expects a valid decimal"
  | .countsReversed => "invalid repetition count range, the start must be <= the end"
  | .tooLong => "pattern too long"

/-- What is wrong with the text of a pattern, and where: `left` and `leftAfter` are the numbers of
characters left in front of the place and behind it. -/
structure PatternFault where
  error : PatternError
  left : Nat
  leftAfter : Nat
  deriving Repr, DecidableEq

/-- The text of a fault in `pattern`, with the place marked below it. -/
def PatternFault.message (fault : PatternFault) (pattern : List Char) : String :=
  let start := pattern.length - fault.left
  let width := max 1 (fault.left - fault.leftAfter)
  "regex parse error:\n    " ++ String.ofList pattern ++ "\n    " ++
    String.ofList (List.replicate start ' ' ++ List.replicate width '^') ++
    "\nerror: " ++ fault.error.message

namespace Pattern

/-- The test that only `c` passes. -/
def exactly (c : Char) : CharTest := .range c c

/-- The test that a letter behind a backslash stands for. -/
def letterTest? : Char → Option CharTest
  | 'd' => some .digit
  | 'D' => some (.not .digit)
  | 's' => some .blank
  | 'S' => some (.not .blank)
  | 'w' => some .word
  | 'W' => some (.not .word)
  | 't' => some (exactly '\t')
  | 'n' => some (exactly '\n')
  | 'r' => some (exactly '\r')
  | 'a' => some (exactly (Char.ofNat 0x07))
  | 'f' => some (exactly (Char.ofNat 0x0c))
  | 'v' => some (exactly (Char.ofNat 0x0b))
  | _ => none

/-- Whether a character stands for itself behind a backslash. -/
def isPlainEscape (c : Char) : Bool :=
  c.toNat < 0x80 && !isAlphanumeric c && c != '<' && c != '>'

/-- The test that a character behind a backslash stands for. `left` counts the characters from the
backslash on. -/
def escapedTest (left : Nat) (c : Char) : Except PatternFault CharTest :=
  match letterTest? c with
  | some test => .ok test
  | none =>
    if isPlainEscape c then .ok (exactly c)
    else .error ⟨if isAsciiDigit c then .backreference else .escapeUnknown, left, left - 2⟩

/-- The pattern that a character behind a backslash stands for. -/
def escaped (left : Nat) (c : Char) : Except PatternFault Pattern :=
  match c with
  | 'A' => .ok .textStart
  | 'z' => .ok .textEnd
  | 'b' => .ok (.wordEdge true)
  | 'B' => .ok (.wordEdge false)
  | _ => (escapedTest left c).map .char

/-! ## Classes -/

/-- One sign of a class, and what follows it. -/
def readClassSign : List Char → Except PatternFault (CharTest × List Char)
  | [] => .error ⟨.escapeUnfinished, 0, 0⟩
  | ['\\'] => .error ⟨.escapeUnfinished, 1, 0⟩
  | '\\' :: c :: cs => (escapedTest (cs.length + 2) c).map (·, cs)
  | c :: cs => .ok (exactly c, cs)

/-- The tests of a class up to its bracket, and what follows that. `unclosed` is the fault if there
is none. -/
def readClassItems (unclosed : PatternFault) :
    (fuel : Nat) → List CharTest → List Char → Except PatternFault (List CharTest × List Char)
  | 0, _, _ => .error unclosed
  | _, _, [] => .error unclosed
  | _, found, ']' :: cs => .ok (found, cs)
  | fuel + 1, found, cs => do
    let (test, rest) ← readClassSign cs
    match test, rest with
    | .range first _, '-' :: next :: after =>
      if next = ']' then readClassItems unclosed fuel (found ++ [test]) rest
      else
        let (upper, behind) ← readClassSign (next :: after)
        match upper with
        | .range last _ =>
          if first ≤ last then
            readClassItems unclosed fuel (found ++ [.range first last]) behind
          else .error ⟨.rangeInvalid, cs.length, behind.length⟩
        | _ => .error ⟨.rangeInvalid, cs.length, behind.length⟩
    | _, _ => readClassItems unclosed fuel (found ++ [test]) rest

/-- A class, from behind its opening bracket on. -/
def readClass (cs : List Char) : Except PatternFault (CharTest × List Char) := do
  let left := cs.length + 1
  let (negated, body) :=
    match cs with
    | '^' :: body => (true, body)
    | _ => (false, cs)
  let hyphens := body.takeWhile (· == '-')
  let behind := body.dropWhile (· == '-')
  let (first, behind) :=
    match hyphens, behind with
    | [], ']' :: more => ([exactly ']'], more)
    | _, _ => (hyphens.map exactly, behind)
  let (tests, rest) ← readClassItems ⟨.classUnclosed, left, behind.length⟩
    (cs.length + 1) first behind
  return (if negated then .not (.any tests) else .any tests, rest)

/-! ## Counts -/

/-- The counts between braces, from behind the opening brace on: the least, the most, and what
follows. -/
def readCounts (cs : List Char) : Except PatternFault (Nat × Option Nat × List Char) :=
  let left := cs.length + 1
  let inside := cs.takeWhile (· != '}')
  match cs.dropWhile (· != '}') with
  | [] => .error ⟨.countUnclosed, left, 0⟩
  | _ :: rest =>
    let parts := (inside.takeWhile (· != ','), inside.dropWhile (· != ','))
    match Decimal.readNat? parts.1, parts.2 with
    | none, _ => .error ⟨.countMissing, left - 1, left - 1⟩
    | some least, [] => .ok (least, some least, rest)
    | some least, [_] => .ok (least, none, rest)
    | some least, _ :: most =>
      match Decimal.readNat? most with
      | none => .error ⟨.countMissing, rest.length + 1, rest.length + 1⟩
      | some most =>
        if least ≤ most then .ok (least, some most, rest)
        else .error ⟨.countsReversed, left, rest.length⟩

/-! ## All of it -/

/-- What was read of a group, or of the whole: the alternatives that are complete, the parts of the
last one from last to first, and the number of characters from the group's parenthesis on. -/
structure Frame where
  alternatives : Option Pattern
  parts : List Pattern
  left : Nat
  deriving Repr

namespace Frame

/-- A frame of which nothing was read. -/
def opened (left : Nat) : Frame := ⟨none, [], left⟩

/-- The frame with one more part. -/
def push (frame : Frame) (part : Pattern) : Frame :=
  { frame with parts := part :: frame.parts }

/-- The parts of the last alternative as one pattern. -/
def sequence (frame : Frame) : Pattern :=
  frame.parts.foldl (fun rest part => .seq part rest) .empty

/-- All that was read as one pattern. -/
def pattern (frame : Frame) : Pattern :=
  match frame.alternatives with
  | none => frame.sequence
  | some alternatives => .either alternatives frame.sequence

/-- The frame in which the next alternative starts. -/
def nextAlternative (frame : Frame) : Frame :=
  ⟨some frame.pattern, [], frame.left⟩

/-- The frame with its last part repeated. -/
def repeatLast? (frame : Frame) (least : Nat) (most : Option Nat) : Option Frame :=
  match frame.parts with
  | [] => none
  | part :: parts => some { frame with parts := .repeated part least most :: parts }

end Frame

/-- Whether something stands for a repetition as few times as possible, which changes nothing
here. -/
def dropLazy : List Char → List Char
  | '?' :: cs => cs
  | cs => cs

/-- Reads on, the innermost group being `frame` and those around it `outer`. -/
def readOn : (fuel : Nat) → (frame : Frame) → (outer : List Frame) → List Char →
    Except PatternFault Pattern
  | _, frame, [], [] => .ok frame.pattern
  | _, frame, _ :: _, [] => .error ⟨.groupUnclosed, frame.left, frame.left - 1⟩
  | 0, _, _, cs => .error ⟨.tooLong, cs.length, cs.length⟩
  | fuel + 1, frame, outer, c :: cs =>
    let left := cs.length + 1
    let repeatBy (least : Nat) (most : Option Nat) (rest : List Char) :=
      match frame.repeatLast? least most with
      | some next => readOn fuel next outer (dropLazy rest)
      | none => .error ⟨.nothingToRepeat, left, left⟩
    match c, cs with
    | '(', '?' :: ':' :: rest => readOn fuel (.opened left) (frame :: outer) rest
    | '(', rest => readOn fuel (.opened left) (frame :: outer) rest
    | ')', rest =>
      match outer with
      | [] => .error ⟨.groupUnopened, left, rest.length⟩
      | around :: outer => readOn fuel (around.push frame.pattern) outer rest
    | '|', rest => readOn fuel frame.nextAlternative outer rest
    | '*', rest => repeatBy 0 none rest
    | '+', rest => repeatBy 1 none rest
    | '?', rest => repeatBy 0 (some 1) rest
    | '\x7b', rest =>
      if frame.parts.isEmpty then .error ⟨.nothingToRepeat, left, left⟩
      else
        match readCounts rest with
        | .error fault => .error fault
        | .ok (least, most, rest) => repeatBy least most rest
    | '.', rest => readOn fuel (frame.push (.char (.not (exactly '\n')))) outer rest
    | '^', rest => readOn fuel (frame.push .textStart) outer rest
    | '$', rest => readOn fuel (frame.push .textEnd) outer rest
    | '[', rest =>
      match readClass rest with
      | .error fault => .error fault
      | .ok (test, rest) => readOn fuel (frame.push (.char test)) outer rest
    | '\\', [] => .error ⟨.escapeUnfinished, left, 0⟩
    | '\\', letter :: rest =>
      match escaped left letter with
      | .error fault => .error fault
      | .ok part => readOn fuel (frame.push part) outer rest
    | _, rest => readOn fuel (frame.push (.char (exactly c))) outer rest

/-- The pattern that a text spells. Every step reads at least one character. -/
def read (text : List Char) : Except PatternFault Pattern :=
  readOn text.length (.opened text.length) [] text

end Pattern

end MarkupForms.Text
