/-!
# Integers in decimal

Reading takes an optional sign and at least one ASCII digit, and nothing else; writing puts a minus
sign before negative numbers and no leading zeros. A 64-bit integer is read only from a text whose
value is in range: nothing wraps.
-/

namespace MarkupForms.Decimal

/-- The value of an ASCII digit. -/
def digitValue? (c : Char) : Option Nat :=
  if 48 ≤ c.toNat ∧ c.toNat ≤ 57 then some (c.toNat - 48) else none

/-- Whether `c` is an ASCII digit. -/
def isDigit (c : Char) : Bool :=
  (digitValue? c).isSome

/-- The number whose leading digits are worth `acc` and whose remaining digits are given. -/
def readDigits (acc : Nat) : List Char → Option Nat
  | [] => some acc
  | c :: cs =>
    match digitValue? c with
    | some d => readDigits (10 * acc + d) cs
    | none => none

/-- The value of a non-empty run of digits. -/
def readNat? : List Char → Option Nat
  | [] => none
  | c :: cs => readDigits 0 (c :: cs)

/-- The value of a run of digits with an optional sign before it. -/
def readInt? : List Char → Option Int
  | '-' :: cs => (readNat? cs).map fun n => -(n : Int)
  | '+' :: cs => (readNat? cs).map fun n => (n : Int)
  | cs => (readNat? cs).map fun n => (n : Int)

/-- `n` as a 64-bit integer, if it is one. -/
def int64? (n : Int) : Option Int64 :=
  if -Int.pow 2 63 ≤ n ∧ n < Int.pow 2 63 then some (Int64.ofInt n) else none

/-- The 64-bit integer that `cs` denotes. -/
def readInt64? (cs : List Char) : Option Int64 :=
  (readInt? cs).bind int64?

/-- The digit of `d < 10`. -/
def digitChar (d : Nat) : Char :=
  Char.ofNat (48 + d)

/-- The digits of `n`, most significant first. -/
def digits (n : Nat) : List Char :=
  if n < 10 then [digitChar n]
  else digits (n / 10) ++ [digitChar (n % 10)]

/-- `n` in decimal. -/
def ofNat (n : Nat) : String :=
  String.ofList (digits n)

/-- The sign and digits of `n`. -/
def intDigits (n : Int) : List Char :=
  if n < 0 then '-' :: digits n.natAbs else digits n.natAbs

/-- `n` in decimal. -/
def ofInt (n : Int) : String :=
  String.ofList (intDigits n)

end MarkupForms.Decimal
