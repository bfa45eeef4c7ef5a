import MarkupForms.Decimal.Integer
import MarkupForms.Text.Split

/-!
# Entities and character references

In text and attribute values `&name;` stands for one of five characters and `&#n;` or `&#xh;` for
the character with that number. Messages give positions as byte offsets into the text.
-/

namespace MarkupForms.Markup

/-- The number of bytes that a text takes. -/
def byteLength (cs : List Char) : Nat :=
  (cs.map Char.utf8Size).foldr (· + ·) 0

/-- Why a character reference is no character. -/
inductive ReferenceFault where
  | signed
  | noDigits
  | badDigit
  | tooLarge
  | zero
  | notACodePoint (n : Nat)
  deriving Repr, DecidableEq

/-- The text of a reference fault. -/
def ReferenceFault.message : ReferenceFault → String
  | .signed => "unexpected number sign"
  | .noDigits => "cannot parse integer from empty string"
  | .badDigit => "invalid digit found in string"
  | .tooLarge => "number too large to fit in target type"
  | .zero => "0x0 character is not permitted in XML"
  | .notACodePoint n => "`" ++ Decimal.ofNat n ++ "` is not a valid codepoint"

/-- Why a text cannot be unescaped. -/
inductive EscapeFault where
  | unterminated (start stop : Nat)
  | unknownEntity (start stop : Nat) (name : String)
  | badReference (fault : ReferenceFault)
  deriving Repr, DecidableEq

/-- The text of an escape fault. -/
def EscapeFault.message : EscapeFault → String
  | .unterminated start stop =>
    "Error while escaping character at range " ++ Decimal.ofNat start ++ ".." ++
      Decimal.ofNat stop ++ ": Cannot find ';' after '&'"
  | .unknownEntity start stop name =>
    "at " ++ Decimal.ofNat start ++ ".." ++ Decimal.ofNat stop ++
      ": unrecognized entity `" ++ name ++ "`"
  | .badReference fault => "invalid character reference: " ++ fault.message

/-- The value of a digit in the given base, which is 10 or 16. -/
def referenceDigit? (base : Nat) (c : Char) : Option Nat :=
  let n := c.toNat
  let value? :=
    if 48 ≤ n ∧ n ≤ 57 then some (n - 48)
    else if 97 ≤ n ∧ n ≤ 102 then some (n - 87)
    else if 65 ≤ n ∧ n ≤ 70 then some (n - 55)
    else none
  value?.filter (· < base)

/-- The number whose leading digits are worth `acc`; it has to fit in 32 bits at every digit. -/
def referenceNumber (base acc : Nat) : List Char → Except ReferenceFault Nat
  | [] => .ok acc
  | c :: cs =>
    match referenceDigit? base c with
    | none => .error .badDigit
    | some d =>
      if base * acc + d < Nat.pow 2 32 then referenceNumber base (base * acc + d) cs
      else .error .tooLarge

/-- The number of a reference. A sign is refused before anything else. -/
def unsignedNumber (base : Nat) : List Char → Except ReferenceFault Nat
  | [] => .error .noDigits
  | c :: cs => if c = '+' || c = '-' then .error .signed else referenceNumber base 0 (c :: cs)

/-- The character that a reference, without `&#` and `;`, stands for. -/
def referencedChar (cs : List Char) : Except ReferenceFault Char :=
  let number :=
    match cs with
    | 'x' :: hex => unsignedNumber 16 hex
    | _ => unsignedNumber 10 cs
  match number with
  | .error fault => .error fault
  | .ok n =>
    if n = 0 then .error .zero
    else if n.isValidChar then .ok (Char.ofNat n)
    else .error (.notACodePoint n)

/-- The character that a named entity stands for. -/
def entity? (name : String) : Option Char :=
  if name = "lt" then some '<'
  else if name = "gt" then some '>'
  else if name = "amp" then some '&'
  else if name = "apos" then some '\''
  else if name = "quot" then some '"'
  else none

/-- The character that the text between `&` and `;` stands for; `start` is its offset. -/
def expand (start : Nat) (name : List Char) : Except EscapeFault Char :=
  match name with
  | '#' :: reference => (referencedChar reference).mapError .badReference
  | _ =>
    match entity? (String.ofList name) with
    | some c => .ok c
    | none => .error (.unknownEntity start (start + byteLength name) (String.ofList name))

/-- The text `cs` with its references expanded. The rest of a reference that has begun is collected
in `name`, last character first; `begun` is the offset of its ampersand, `offset` the one of `cs`,
and `total` the length of the whole text. -/
def unescapeFrom (total : Nat) : (offset : Nat) → (begun : Option (Nat × List Char)) → List Char →
    Except EscapeFault (List Char)
  | _, none, [] => .ok []
  | _, some (start, _), [] => .error (.unterminated start total)
  | offset, none, c :: cs =>
    if c = '&' then unescapeFrom total (offset + 1) (some (offset, [])) cs
    else (unescapeFrom total (offset + c.utf8Size) none cs).map (c :: ·)
  | offset, some (start, name), c :: cs =>
    if c = '&' then .error (.unterminated start total)
    else if c = ';' then
      match expand (start + 1) name.reverse with
      | .error fault => .error fault
      | .ok expanded => (unescapeFrom total (offset + 1) none cs).map (expanded :: ·)
    else unescapeFrom total (offset + c.utf8Size) (some (start, c :: name)) cs

/-- The text with its references expanded. -/
def unescape (cs : List Char) : Except EscapeFault (List Char) :=
  unescapeFrom (byteLength cs) 0 none cs

end MarkupForms.Markup
