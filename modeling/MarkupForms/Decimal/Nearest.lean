/-!
# The nearest binary64 number

A positive rational `num / den` is rounded to the nearest number of the form `m · 2 ^ q` that the
64-bit format holds: `m < 2 ^ 53`, `-1074 ≤ q`, and `q` as small as `m < 2 ^ 53` allows. A tie goes
to the even `m`. With that choice of `q` the encoding is `(q + 1074) · 2 ^ 52 + m`, for normal and
subnormal numbers alike, and a carry into `m = 2 ^ 53` lands on the next binade by itself.
-/

namespace MarkupForms.Decimal

/-- `num / den` rounded to the nearest integer, a tie to the even one. -/
def roundDiv (num den : Nat) : Nat :=
  let q := num / den
  let r := num % den
  if 2 * r < den then q
  else if den < 2 * r then q + 1
  else if q % 2 = 0 then q else q + 1

/-- The largest `e` with `2 ^ e ≤ num / den`, for positive `num` and `den`. -/
def log2Floor (num den : Nat) : Int :=
  let e : Int := (num.log2 : Int) - den.log2
  let reached :=
    if 0 ≤ e then decide (den * Nat.pow 2 e.toNat ≤ num)
    else decide (den ≤ num * Nat.pow 2 (-e).toNat)
  if reached then e else e - 1

/-- The encoding of positive infinity. -/
def infinityBits : Nat := 0x7ff0000000000000

/-- The encoding of a not-a-number. -/
def nanBits : Nat := 0x7ff8000000000000

/-- The encoding of the number nearest to `num / den`; past the largest finite number it is
infinity. -/
def nearestBits (num den : Nat) : Nat :=
  if num = 0 then 0
  else
    let q : Int := max (log2Floor num den - 52) (-1074)
    let m :=
      if 0 ≤ q then roundDiv num (den * Nat.pow 2 q.toNat)
      else roundDiv (num * Nat.pow 2 (-q).toNat) den
    min ((q + 1074).toNat * Nat.pow 2 52 + m) infinityBits

/-- The number with the given sign and encoded magnitude. -/
def signedFloat (negative : Bool) (bits : Nat) : Float :=
  Float.ofBits (UInt64.ofNat (if negative then bits + Nat.pow 2 63 else bits))

end MarkupForms.Decimal
