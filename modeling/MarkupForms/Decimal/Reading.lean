import MarkupForms.Decimal.Integer
import MarkupForms.Decimal.Nearest
import MarkupForms.Text.Ascii

/-!
# Reading numbers with a fraction

A number is written with an optional sign, then either one of the words `inf`, `infinity`, `nan` in
any case, or digits with at most one point among them, at least one digit in all, and an optional
exponent: `e` or `E`, an optional sign, at least one digit. Its value is the binary64 number nearest
to the decimal one.
-/

namespace MarkupForms.Decimal

/-- What a text for a number says, before rounding. -/
inductive FloatText where
  /-- The decimal number `mantissa · 10 ^ exponent`. -/
  | finite (negative : Bool) (mantissa : Nat) (exponent : Int)
  | infinite (negative : Bool)
  | notANumber (negative : Bool)
  deriving Repr, DecidableEq

/-- The digits at the start of `cs` and what follows them. -/
def spanDigits (cs : List Char) : List Char × List Char :=
  (cs.takeWhile isDigit, cs.dropWhile isDigit)

/-- The exponent at the end of a number: nothing, or a marked integer. -/
def readExponent? : List Char → Option Int
  | [] => some 0
  | c :: cs => if c = 'e' || c = 'E' then readInt? cs else none

/-- A number without its sign. -/
def readUnsigned? (negative : Bool) (cs : List Char) : Option FloatText :=
  let word := String.ofList (cs.map Text.lowerAscii)
  if word = "inf" || word = "infinity" then some (.infinite negative)
  else if word = "nan" then some (.notANumber negative)
  else
    let (whole, afterWhole) := spanDigits cs
    let (fraction, tail) :=
      match afterWhole with
      | '.' :: afterPoint => spanDigits afterPoint
      | _ => ([], afterWhole)
    match readNat? (whole ++ fraction), readExponent? tail with
    | some mantissa, some exponent =>
      some (.finite negative mantissa (exponent - fraction.length))
    | _, _ => none

/-- What `cs` says as a number. -/
def readFloatText? : List Char → Option FloatText
  | '-' :: cs => readUnsigned? true cs
  | '+' :: cs => readUnsigned? false cs
  | cs => readUnsigned? false cs

/-- The encoding of the number nearest to `mantissa · 10 ^ exponent`. The order of magnitude decides
first, so that no power is computed that cannot matter: from `10 ^ 310` on all is infinite, and
below `10 ^ -330` all is zero. -/
def decimalBits (mantissa : Nat) (exponent : Int) : Nat :=
  let magnitude : Int := (digits mantissa).length + exponent
  if mantissa = 0 || magnitude < -330 then 0
  else if 310 < magnitude then infinityBits
  else if 0 ≤ exponent then nearestBits (mantissa * Nat.pow 10 exponent.toNat) 1
  else nearestBits mantissa (Nat.pow 10 (-exponent).toNat)

/-- The binary64 number that a text denotes. -/
def FloatText.value : FloatText → Float
  | .finite negative mantissa exponent => signedFloat negative (decimalBits mantissa exponent)
  | .infinite negative => signedFloat negative infinityBits
  | .notANumber negative => signedFloat negative nanBits

/-- The number that `cs` denotes. -/
def readFloat? (cs : List Char) : Option Float :=
  (readFloatText? cs).map FloatText.value

end MarkupForms.Decimal
