import MarkupForms.Decimal.Integer

/-!
# The shortest decimal text of a number

A binary64 number is written with the fewest decimal digits that read back as the same number, and
among those with the ones nearest to it. For 1, 2, … 17 digits the two neighbours of the number on
that decimal grid are tested against the interval of reals that round to it; the first grid with a
hit decides. All of it is exact arithmetic on natural numbers.
-/

namespace MarkupForms.Decimal

/-- The decimal number `0.d₁d₂…dₙ · 10 ^ point` with `d₁ ≠ 0`. -/
structure Scientific where
  digits : List Char
  point : Int
  deriving Repr, DecidableEq

/-- The reals that round to a number: `value / unit` is the number itself, `low / unit` and
`high / unit` are the ends, which belong to the interval if `closed`. -/
structure RoundingInterval where
  value : Nat
  low : Nat
  high : Nat
  unit : Nat
  closed : Bool
  deriving Repr, DecidableEq

/-- The interval of the positive number encoded by `bits`. In units of a quarter of the last place
the number is `4 · m`; the neighbours are two units away half-way, except that below a power of two
the gap is half as wide. -/
def RoundingInterval.ofBits (bits : Nat) : RoundingInterval :=
  let fraction := bits % Nat.pow 2 52
  let biased := bits / Nat.pow 2 52
  let m := if biased = 0 then fraction else fraction + Nat.pow 2 52
  let shift : Int := (max biased 1 : Nat) - 1077
  let below := if fraction = 0 && 1 < biased then 1 else 2
  let scale := Nat.pow 2 shift.toNat
  ⟨4 * m * scale, (4 * m - below) * scale, (4 * m + 2) * scale, Nat.pow 2 (-shift).toNat, m % 2 = 0⟩

/-- Whether the decimal `c · num / den` lies in the interval. -/
def RoundingInterval.contains (i : RoundingInterval) (c num den : Nat) : Bool :=
  let x := c * num * i.unit
  if i.closed then i.low * den ≤ x && x ≤ i.high * den
  else i.low * den < x && x < i.high * den

/-- The `p` with `10 ^ (p - 1) ≤ num / den < 10 ^ p`, for positive `num` and `den`. -/
def decimalPoint (num den : Nat) : Int :=
  if den ≤ num then (digits (num / den)).length
  else 1 - (digits ((den + num - 1) / num - 1)).length

/-- The neighbour with `n` digits that the interval contains, the nearer one if it contains both
and the upper one on a tie. -/
def RoundingInterval.onGrid (i : RoundingInterval) (p : Int) (n : Nat) : Option Nat :=
  let exponent : Int := p - n
  let num := Nat.pow 10 exponent.toNat
  let den := Nat.pow 10 (-exponent).toNat
  let lower := i.value * den / (num * i.unit)
  let upper := lower + 1
  match i.contains lower num den, i.contains upper num den with
  | true, true =>
    if i.value * den * 2 < (lower + upper) * num * i.unit then some lower else some upper
  | true, false => some lower
  | false, true => some upper
  | false, false => none

/-- The digits without the zeros at their end. -/
def dropTrailingZeros (ds : List Char) : List Char :=
  (ds.reverse.dropWhile (· == '0')).reverse

/-- The first of the grids `n`, `n + 1`, … with a hit, of at most `fuel` grids. -/
def RoundingInterval.firstGrid (i : RoundingInterval) (p : Int) : Nat → Nat → Option (Nat × Nat)
  | 0, _ => none
  | fuel + 1, n =>
    match i.onGrid p n with
    | some c => some (c, n)
    | none => i.firstGrid p fuel (n + 1)

/-- The shortest decimal of the positive finite number encoded by `bits`. Seventeen digits always
suffice. -/
def shortest (bits : Nat) : Scientific :=
  let i := RoundingInterval.ofBits bits
  let p := decimalPoint i.value i.unit
  match i.firstGrid p 17 1 with
  | some (c, n) =>
    let ds := digits c
    ⟨dropTrailingZeros ds, p + (ds.length - n : Int)⟩
  | none => ⟨['0'], 0⟩

/-- Where a format switches between positional notation and an exponent: positional numbers have
their point between `leastPoint` and `greatestPoint`. -/
structure FloatStyle where
  leastPoint : Int
  greatestPoint : Int
  deriving Repr, DecidableEq

/-- The digits of `s` around a point, with a digit on both sides of it. -/
def Scientific.positional (s : Scientific) : List Char :=
  let zeros (k : Int) := List.replicate k.toNat '0'
  if s.point ≤ 0 then '0' :: '.' :: zeros (-s.point) ++ s.digits
  else if s.digits.length ≤ s.point then
    s.digits ++ zeros (s.point - s.digits.length) ++ ['.', '0']
  else
    s.digits.take s.point.toNat ++ '.' :: s.digits.drop s.point.toNat

/-- The first digit of `s`, the others behind a point if there are any, and the exponent. -/
def Scientific.withExponent (s : Scientific) : List Char :=
  let mantissa :=
    match s.digits with
    | d :: e :: ds => d :: '.' :: e :: ds
    | ds => ds
  mantissa ++ 'e' :: intDigits (s.point - 1)

/-- The magnitude encoded by `bits` in the given style. -/
def FloatStyle.magnitude (style : FloatStyle) (bits : Nat) : List Char :=
  if bits = 0 then ['0', '.', '0']
  else
    let s := shortest bits
    if style.leastPoint ≤ s.point && s.point ≤ style.greatestPoint then s.positional
    else s.withExponent

/-- The text of a number: `NaN` without a sign, `inf`, or its shortest decimal. -/
def FloatStyle.write (style : FloatStyle) (x : Float) : String :=
  let bits := x.toBits.toNat
  let magnitude := bits % Nat.pow 2 63
  let lead := if Nat.pow 2 63 ≤ bits then ['-'] else []
  if 0x7ff0000000000000 < magnitude then "NaN"
  else if magnitude = 0x7ff0000000000000 then String.ofList (lead ++ ['i', 'n', 'f'])
  else String.ofList (lead ++ style.magnitude magnitude)

end MarkupForms.Decimal
