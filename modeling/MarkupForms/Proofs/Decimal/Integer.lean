import MarkupForms.Decimal.Integer
import MarkupForms.Proofs.Text.Padding

/-!
# Decimal integers and their values

A numeral is an optional sign with digits behind it. It is read as the number that the library finds
in its digits, and it is a 64-bit integer exactly if that number is one. The numeral that is written
for a number is the library's, and it is read as that number.
-/

namespace MarkupForms.Decimal

open Text

/-- An optional sign and at least one digit. -/
structure Numeral where
  sign : String
  digits : String
  sign_mem : sign ∈ ["", "+", "-"]
  digits_ne : digits ≠ ""
  isDigit : ∀ c ∈ digits.toList, c.isDigit = true

namespace Numeral

/-- The sign and then the digits. -/
def text (numeral : Numeral) : String :=
  numeral.sign ++ numeral.digits

/-- The number that the digits stand for, negated by a minus sign. -/
def value (numeral : Numeral) : Int :=
  if numeral.sign = "-" then -(Nat.ofDigitChars 10 numeral.digits.toList 0 : Int)
  else Nat.ofDigitChars 10 numeral.digits.toList 0

end Numeral

/-! ## Digits -/

theorem isDigit_iff {c : Char} : c.isDigit = true ↔ 48 ≤ c.toNat ∧ c.toNat ≤ 57 := by
  simp only [Char.isDigit, Bool.and_eq_true, decide_eq_true_eq]
  exact Iff.rfl

theorem isBlank_of_isDigit {c : Char} (h : c.isDigit = true) : isBlank c = false := by
  have hrange := isDigit_iff.1 h
  simp [isBlank]
  omega

theorem digitValue?_of_isDigit {c : Char} (h : c.isDigit = true) :
    digitValue? c = some (c.toNat - '0'.toNat) := by
  rw [digitValue?, if_pos (isDigit_iff.1 h)]
  rfl

/-- Digits are read as the number that the library finds in them. -/
theorem readDigits_eq {cs : List Char} (h : ∀ c ∈ cs, c.isDigit = true) (acc : Nat) :
    readDigits acc cs = some (Nat.ofDigitChars 10 cs acc) := by
  induction cs generalizing acc with
  | nil => rfl
  | cons c cs ih =>
    rw [readDigits, digitValue?_of_isDigit (h c List.mem_cons_self), Nat.ofDigitChars_cons]
    exact ih (fun d hd => h d (List.mem_cons_of_mem c hd)) _

theorem isDigit_of_readDigits {acc n : Nat} {cs : List Char} (h : readDigits acc cs = some n) :
    ∀ c ∈ cs, c.isDigit = true := by
  induction cs generalizing acc with
  | nil => simp
  | cons c cs ih =>
    rw [readDigits] at h
    by_cases hdigit : 48 ≤ c.toNat ∧ c.toNat ≤ 57
    · rw [digitValue?, if_pos hdigit] at h
      intro d hd
      rcases List.mem_cons.1 hd with rfl | hd
      · exact isDigit_iff.2 hdigit
      · exact ih h d hd
    · rw [digitValue?, if_neg hdigit] at h
      cases h

theorem readNat?_eq {cs : List Char} (hne : cs ≠ []) (h : ∀ c ∈ cs, c.isDigit = true) :
    readNat? cs = some (Nat.ofDigitChars 10 cs 0) := by
  cases cs with
  | nil => exact absurd rfl hne
  | cons c cs => exact readDigits_eq h 0

theorem readNat?_eq_some {n : Nat} {cs : List Char} (h : readNat? cs = some n) :
    cs ≠ [] ∧ (∀ c ∈ cs, c.isDigit = true) ∧ n = Nat.ofDigitChars 10 cs 0 := by
  cases cs with
  | nil => cases h
  | cons c cs =>
    have hdigits := isDigit_of_readDigits h
    rw [readNat?_eq (by simp) hdigits] at h
    exact ⟨by simp, hdigits, (Option.some.inj h).symm⟩

theorem digitChar_eq {d : Nat} (h : d < 10) : digitChar d = d.digitChar := by
  have hcases : ∀ d : Fin 10, digitChar d = d.val.digitChar := by decide
  exact hcases ⟨d, h⟩

/-- The digits of a number are those that the library writes. -/
theorem digits_eq_toDigits (n : Nat) : digits n = Nat.toDigits 10 n := by
  induction n using Nat.strongRecOn with
  | ind n ih =>
    rw [digits, Nat.toDigits_eq_if (by omega)]
    split
    · next h => rw [digitChar_eq h]
    · next h => rw [ih (n / 10) (by omega), digitChar_eq (by omega)]

/-- Without a sign in front the digits alone count. -/
theorem readInt?_of_isDigit {cs : List Char} (h : ∀ c ∈ cs, c.isDigit = true) :
    readInt? cs = (readNat? cs).map fun n => (n : Int) := by
  unfold readInt?
  split
  · next more => exact absurd (h '-' List.mem_cons_self) (by decide)
  · next more => exact absurd (h '+' List.mem_cons_self) (by decide)
  · rfl

/-! ## Numerals -/

namespace Numeral

variable (numeral : Numeral)

theorem digits_toList_ne : numeral.digits.toList ≠ [] :=
  mt String.toList_eq_nil_iff.1 numeral.digits_ne

/-- A numeral is read as its value. -/
theorem readInt?_text : readInt? numeral.text.toList = some numeral.value := by
  have hread := readNat?_eq numeral.digits_toList_ne numeral.isDigit
  have hsign := numeral.sign_mem
  rw [text, String.toList_append, value]
  simp only [List.mem_cons, List.not_mem_nil, or_false] at hsign
  rcases hsign with hsign | hsign | hsign
  · rw [hsign, if_neg (by decide)]
    show readInt? numeral.digits.toList = _
    rw [readInt?_of_isDigit numeral.isDigit, hread]
    rfl
  · rw [hsign, if_neg (by decide)]
    show (readNat? numeral.digits.toList).map (fun n => (n : Int)) = _
    rw [hread]
    rfl
  · rw [hsign, if_pos rfl]
    show (readNat? numeral.digits.toList).map (fun n => -(n : Int)) = _
    rw [hread]
    rfl

theorem startsTight_text : StartsTight numeral.text := by
  intro c hc
  have hsign := numeral.sign_mem
  rw [text, String.toList_append] at hc
  simp only [List.mem_cons, List.not_mem_nil, or_false] at hsign
  rcases hsign with hsign | hsign | hsign
  · rw [hsign] at hc
    exact isBlank_of_isDigit (numeral.isDigit c (List.mem_of_head? hc))
  · rw [hsign] at hc
    cases hc
    decide
  · rw [hsign] at hc
    cases hc
    decide

theorem endsTight_text : EndsTight numeral.text := by
  apply endsTight_append numeral.digits_ne
  intro c hc
  exact isBlank_of_isDigit (numeral.isDigit c (List.mem_of_getLast? hc))

end Numeral

theorem exists_numeral (sign : String) (hsign : sign ∈ ["", "+", "-"]) {digits : List Char}
    {n : Nat} (h : readNat? digits = some n) :
    ∃ numeral : Numeral, numeral.text.toList = sign.toList ++ digits ∧
      numeral.value = if sign = "-" then -(n : Int) else n := by
  obtain ⟨hne, hdigits, rfl⟩ := readNat?_eq_some h
  refine ⟨⟨sign, String.ofList digits, hsign, by simpa using hne, by simpa using hdigits⟩, ?_, ?_⟩
  · simp [Numeral.text]
  · simp [Numeral.value]

/-- Nothing but numerals is read, and each for its value. -/
theorem readInt?_eq_some_iff {cs : List Char} {n : Int} :
    readInt? cs = some n ↔ ∃ numeral : Numeral, numeral.text.toList = cs ∧ numeral.value = n := by
  constructor
  · intro h
    unfold readInt? at h
    split at h
    · next digits =>
      cases hread : readNat? digits with
      | none => simp [hread] at h
      | some magnitude =>
        obtain ⟨numeral, htext, hvalue⟩ := exists_numeral "-" (by simp) hread
        refine ⟨numeral, htext, ?_⟩
        simpa [hread, hvalue] using h
    · next digits =>
      cases hread : readNat? digits with
      | none => simp [hread] at h
      | some magnitude =>
        obtain ⟨numeral, htext, hvalue⟩ := exists_numeral "+" (by simp) hread
        refine ⟨numeral, htext, ?_⟩
        simpa [hread, hvalue] using h
    · cases hread : readNat? cs with
      | none => simp [hread] at h
      | some magnitude =>
        obtain ⟨numeral, htext, hvalue⟩ := exists_numeral "" (by simp) hread
        refine ⟨numeral, htext, ?_⟩
        simpa [hread, hvalue] using h
  · rintro ⟨numeral, rfl, rfl⟩
    exact numeral.readInt?_text

/-- The numeral that is written for a number. -/
def Numeral.ofInt (n : Int) : Numeral where
  sign := if n < 0 then "-" else ""
  digits := n.natAbs.repr
  sign_mem := by split <;> simp
  digits_ne := by
    intro hempty
    have hnil := congrArg String.toList hempty
    rw [Nat.toList_repr] at hnil
    exact Nat.toDigits_ne_nil hnil
  isDigit := by
    intro c hc
    rw [Nat.toList_repr] at hc
    exact Nat.isDigit_of_mem_toDigits (by omega) (by omega) hc

theorem Numeral.text_ofInt (n : Int) : (Numeral.ofInt n).text = n.repr := by
  rw [Numeral.text, Numeral.ofInt, Int.repr_eq_if]
  dsimp only
  split
  · next hneg =>
    have habs : n.natAbs = (-n).toNat := by omega
    rw [if_neg (by omega), habs]
  · next hpos =>
    have habs : n.natAbs = n.toNat := by omega
    rw [if_pos (by omega), habs, String.empty_append]

/-- Numbers are written as the library writes them. -/
theorem ofInt_eq_repr (n : Int) : ofInt n = n.repr := by
  rw [← Numeral.text_ofInt, ofInt, intDigits, digits_eq_toDigits]
  apply String.toList_injective
  rw [String.toList_ofList, Numeral.text, String.toList_append]
  show _ = (if n < 0 then "-" else "").toList ++ n.natAbs.repr.toList
  rw [Nat.toList_repr]
  split <;> rfl

theorem Numeral.value_ofInt (n : Int) : (Numeral.ofInt n).value = n := by
  rw [Numeral.value, Numeral.ofInt]
  dsimp only
  rw [Nat.toList_repr, Nat.ofDigitChars_ten_toDigits]
  split
  · next hneg =>
    rw [if_pos rfl]
    omega
  · next hpos =>
    rw [if_neg (by decide)]
    omega

/-! ## 64-bit integers -/

/-- The range of 64-bit integers. -/
def FitsInt64 (n : Int) : Prop :=
  -Int.pow 2 63 ≤ n ∧ n ≤ Int.pow 2 63 - 1

instance (n : Int) : Decidable (FitsInt64 n) :=
  inferInstanceAs (Decidable (_ ∧ _))

theorem fitsInt64_iff {n : Int} : FitsInt64 n ↔ -9223372036854775808 ≤ n ∧
    n ≤ 9223372036854775807 := Iff.rfl

theorem fitsInt64_toInt (n : Int64) : FitsInt64 n.toInt := by
  have hlower := n.minValue_le_toInt
  have hupper := n.toInt_le
  exact fitsInt64_iff.2 ⟨hlower, hupper⟩

/-- A number is a 64-bit integer exactly if it is in range, and then it is that one. -/
theorem int64?_of_fits {n : Int} (h : FitsInt64 n) :
    ∃ i : Int64, i.toInt = n ∧ int64? n = some i := by
  have hrange := fitsInt64_iff.1 h
  refine ⟨Int64.ofInt n, ?_, ?_⟩
  · rw [Int64.toInt_ofInt]
    exact Int.bmod_eq_of_le (by simp only [Int64.size]; omega) (by simp only [Int64.size]; omega)
  · rw [int64?, if_pos]
    show -9223372036854775808 ≤ n ∧ n < 9223372036854775808
    omega

theorem int64?_of_not_fits {n : Int} (h : ¬FitsInt64 n) : int64? n = none := by
  rw [fitsInt64_iff] at h
  rw [int64?, if_neg]
  show ¬(-9223372036854775808 ≤ n ∧ n < 9223372036854775808)
  omega

theorem int64?_eq_some_iff {n : Int} {i : Int64} : int64? n = some i ↔ i.toInt = n := by
  constructor
  · intro h
    by_cases hfits : FitsInt64 n
    · obtain ⟨other, hother, hsome⟩ := int64?_of_fits hfits
      rw [hsome] at h
      cases h
      exact hother
    · rw [int64?_of_not_fits hfits] at h
      cases h
  · rintro rfl
    obtain ⟨other, hother, hsome⟩ := int64?_of_fits (fitsInt64_toInt i)
    rw [hsome, Int64.toInt_inj.1 hother]

end MarkupForms.Decimal
