import MarkupForms.Decimal.Nearest

/-!
# Similar words

The Jaro similarity of two words: characters match if they are equal and not too far apart, and
matches in another order count half. It lies between 0 and 1 and is computed in binary64 numbers,
which decides between words that are all but equally similar. Each number is kept as the fraction
that it stands for.
-/

namespace MarkupForms.CommandLine

/-- The first place in `places` that holds `c` and is at most `range` away from place `i`, and the
places without it. -/
def takeMatch (range i : Nat) (c : Char) : List (Nat × Char) → Option (Nat × List (Nat × Char))
  | [] => none
  | (j, d) :: rest =>
    if c = d && i ≤ j + range && j ≤ i + range then some (j, rest)
    else (takeMatch range i c rest).map fun (found, left) => (found, (j, d) :: left)

/-- The matching pairs: the characters of the first word that match, in order, each with the place
in the second word. -/
def matchPlaces (range : Nat) : (i : Nat) → List Char → List (Nat × Char) → List (Nat × Char)
  | _, [], _ => []
  | i, c :: cs, places =>
    match takeMatch range i c places with
    | some (j, left) => (j, c) :: matchPlaces range (i + 1) cs left
    | none => matchPlaces range (i + 1) cs places

/-- A fraction that is not negative. -/
structure Fraction where
  num : Nat
  den : Nat
  deriving Repr, DecidableEq

namespace Fraction

/-- Whether one fraction is less than another. -/
def lt (a b : Fraction) : Bool :=
  a.num * b.den < b.num * a.den

/-- The sum of two fractions. -/
def add (a b : Fraction) : Fraction :=
  ⟨a.num * b.den + b.num * a.den, a.den * b.den⟩

/-- The nearest fraction with 53 binary digits, a tie going to the even one. -/
def rounded (a : Fraction) : Fraction :=
  if a.num = 0 then ⟨0, 1⟩
  else
    let q := Decimal.log2Floor a.num a.den - 52
    if 0 ≤ q then ⟨Decimal.roundDiv a.num (a.den * Nat.pow 2 q.toNat) * Nat.pow 2 q.toNat, 1⟩
    else ⟨Decimal.roundDiv (a.num * Nat.pow 2 (-q).toNat) a.den, Nat.pow 2 (-q).toNat⟩

end Fraction

/-- The similarity of two words. -/
def similarity (a b : List Char) : Fraction :=
  let range := max a.length b.length / 2 - 1
  let found := matchPlaces range 0 a ((List.range b.length).zip b)
  let m := found.length
  if m = 0 then ⟨0, 1⟩
  else
    let ordered := (found.map (·.1)).mergeSort (· ≤ ·)
    let inPlace := ordered.filterMap (b[·]?)
    let moved := ((found.map (·.2)).zip inPlace).countP fun (c, d) => c != d
    let share (part whole : Nat) : Fraction := Fraction.rounded ⟨part, whole⟩
    let total := ((share m a.length).add (share m b.length)).rounded
    let total := (total.add (share (m - moved / 2) m)).rounded
    Fraction.rounded ⟨total.num, 3 * total.den⟩

/-- A similarity has to be greater than this: seven tenths. -/
def similarityFloor : Fraction := Fraction.rounded ⟨7, 10⟩

/-- The candidate most similar to a word, if it is similar by more than seven tenths; of equally
similar ones the last. -/
def closest? (word : String) (candidates : List String) : Option String :=
  let better (best : Option (Fraction × String)) (candidate : String) :=
    let score := similarity word.toList candidate.toList
    let worse :=
      match best with
      | some (other, _) => score.lt other
      | none => !similarityFloor.lt score
    if worse then best else some (score, candidate)
  (candidates.foldl better none).map (·.2)

end MarkupForms.CommandLine
