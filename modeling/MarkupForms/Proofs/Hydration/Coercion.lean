import MarkupForms.Proofs.Decimal.Integer
import MarkupForms.Proofs.Hydration.Assignment
import MarkupForms.Value.Print

/-!
# Texts are coerced to what they print

A printed integer, truth value or member is coerced to itself, whatever blanks stand around it. Of
the numerals those are taken whose value is a 64-bit integer, and they are taken for that value; the
others are refused, and so is a text that names no truth value or member. A property of texts or
objects takes a text as it is, blanks included.

Coercion, admission and adaptation are three functions that agree: what coercion makes is admitted
by the kind, and adapting it changes nothing.
-/

namespace MarkupForms.Hydration

open Text Decimal

/-- The words for a truth value. -/
def boolWords : Bool → List String
  | true => ["true", "True"]
  | false => ["false", "False"]

/-- The structural error about a text that cannot be read under a kind. -/
def unreadableText (name : String) (kind : ValueKind) (text : String) : MarkupError :=
  .structural (.assignment (.coercion (.unreadable name kind text))) none

/-! ## Coercing texts -/

section Texts

variable {p : Pass} {kind : ValueKind} {name text : String} {value : Value}

theorem coerce_text_eq_ok_iff {typeOf : ObjectId → String} :
    coerce typeOf kind name (.text text) = .ok value ↔ readValue? kind text = some value := by
  rw [coerce]
  cases readValue? kind text with
  | none => exact iff_of_false (fun h => by cases h) fun h => by cases h
  | some found =>
    exact ⟨fun h => congrArg some (Except.ok.inj h),
      fun h => congrArg Except.ok (Option.some.inj h)⟩

/-- A text becomes what it is read as, and is refused if it cannot be read. -/
theorem coerceFor_text (p : Pass) (kind : ValueKind) (name text : String) :
    p.coerceFor kind name (.text text) =
      match readValue? kind text with
      | some value => .ok value
      | none => .error (unreadableText name kind text) := by
  rw [Pass.coerceFor, coerce]
  cases readValue? kind text <;> rfl

theorem coerceFor_text_eq_ok_iff :
    p.coerceFor kind name (.text text) = .ok value ↔ readValue? kind text = some value := by
  rw [coerceFor_text]
  cases readValue? kind text with
  | none => exact iff_of_false (fun h => by cases h) fun h => by cases h
  | some found =>
    exact ⟨fun h => congrArg some (Except.ok.inj h),
      fun h => congrArg Except.ok (Option.some.inj h)⟩

theorem coerceFor_text_of_none (h : readValue? kind text = none) :
    p.coerceFor kind name (.text text) = .error (unreadableText name kind text) := by
  rw [coerceFor_text, h]

end Texts

/-! ## Reading padded texts -/

section Padded

variable {before behind : String} (hbefore : IsPadding before) (hbehind : IsPadding behind)
include hbefore hbehind

theorem readValue?_numeral (numeral : Numeral) :
    readValue? .int (before ++ numeral.text ++ behind) = (int64? numeral.value).map .int := by
  have htrim : trim (before ++ numeral.text ++ behind).toList = numeral.text.toList :=
    trim_padded_of_tight hbefore hbehind numeral.startsTight_text numeral.endsTight_text
  unfold readValue?
  simp only [htrim]
  rw [readInt64?, numeral.readInt?_text, Option.bind_some]

theorem readValue?_repr
    (n : Int64) : readValue? .int (before ++ n.toInt.repr ++ behind) = some (.int n) := by
  rw [← Numeral.text_ofInt, readValue?_numeral hbefore hbehind, Numeral.value_ofInt,
    int64?_eq_some_iff.2 rfl]
  rfl

theorem readValue?_member {info : EnumInfo} {member : String} (hmember : member ∈ info.members)
    (hstarts : StartsTight member) (hends : EndsTight member) :
    readValue? (.enum info) (before ++ member ++ behind) = some (.enum member) := by
  have htrim : trim (before ++ member ++ behind).toList = member.toList :=
    trim_padded_of_tight hbefore hbehind hstarts hends
  unfold readValue?
  simp only [htrim, String.ofList_toList]
  rw [EnumInfo.member?_eq_some_iff.2 ⟨rfl, hmember⟩]
  rfl

theorem readValue?_boolWord {b : Bool} {word : String} (hword : word ∈ boolWords b) :
    readValue? .bool (before ++ word ++ behind) = some (.bool b) := by
  have hread : trim word.toList = word.toList ∧ readBool? word.toList = some b := by
    have hall : ∀ b, ∀ word ∈ boolWords b, trim word.toList = word.toList ∧
      readBool? word.toList = some b := by decide
    exact hall b word hword
  have htrim : trim (before ++ word ++ behind).toList = word.toList := by
    rw [trim_padded hbefore hbehind, hread.1]
  unfold readValue?
  simp only [htrim]
  rw [hread.2]
  rfl

end Padded

/-- What is read as an integer is a numeral with blanks around it, and it is read as its value. -/
theorem exists_numeral_of_readValue? {text : String} {value : Value}
    (h : readValue? .int text = some value) :
    ∃ (numeral : Numeral) (n : Int64), trimmed text = numeral.text ∧ n.toInt = numeral.value ∧
    value = .int n := by
  obtain ⟨n, hread, rfl⟩ := Option.map_eq_some_iff.1 h
  obtain ⟨m, hint, hsome⟩ := Option.bind_eq_some_iff.1 hread
  obtain ⟨numeral, htext, rfl⟩ := readInt?_eq_some_iff.1 hint
  refine ⟨numeral, n, ?_, int64?_eq_some_iff.1 hsome, rfl⟩
  rw [trimmed, ← htext, String.ofList_toList]

theorem readValue?_noMember {info : EnumInfo} {text : String} (h : trimmed text ∉ info.members) :
    readValue? (.enum info) text = none := by
  have hnone : info.member? (trimmed text) = none := by
    cases hmember : info.member? (trimmed text) with
    | none => rfl
    | some member => exact absurd (EnumInfo.member?_eq_some_iff.1 hmember).2 h
  unfold readValue?
  show (info.member? (trimmed text)).map Value.enum = none
  rw [hnone]
  rfl

theorem readValue?_noBoolWord {text : String} (h : ∀ b, trimmed text ∉ boolWords b) :
    readValue? .bool text = none := by
  have hne : ∀ b, ∀ word ∈ boolWords b, trim text.toList ≠ word.toList := by
    intro b word hword heq
    apply h b
    rw [trimmed, heq, String.ofList_toList]
    exact hword
  have hnone : readBool? (trim text.toList) = none := by
    rw [readBool?, if_neg, if_neg]
    · rintro (heq | heq)
      · exact hne false "false" (by simp [boolWords]) heq
      · exact hne false "False" (by simp [boolWords]) heq
    · rintro (heq | heq)
      · exact hne true "true" (by simp [boolWords]) heq
      · exact hne true "True" (by simp [boolWords]) heq
  unfold readValue?
  simp only [hnone]
  rfl

/-! ## Agreement -/

/-- A scalar's own text is coerced to it: that of an integer, of a truth value, and of a member
without blanks at its ends. -/
theorem coerceFor_print (p : Pass) (name : String) (describe : ObjectId → String) {kind : ValueKind}
    {value : Value} (hadmits : kind.admits value = true)
    (hkind : kind = .int ∨ kind = .bool ∨
      ∃ info, kind = .enum info ∧ ∀ member ∈ info.members, StartsTight member ∧ EndsTight member)
    {before behind : String} (hbefore : IsPadding before) (hbehind : IsPadding behind) :
    p.coerceFor kind name (.text (before ++ value.print describe ++ behind)) = .ok value := by
  apply coerceFor_text_eq_ok_iff.2
  rcases hkind with rfl | rfl | ⟨info, rfl, htight⟩
  · cases value with
    | int n =>
      rw [Value.print, ofInt_eq_repr]
      exact readValue?_repr hbefore hbehind n
    | _ => cases hadmits
  · cases value with
    | bool b =>
      apply readValue?_boolWord hbefore hbehind
      cases b <;> simp [Value.print, boolWords]
    | _ => cases hadmits
  · cases value with
    | enum member =>
      obtain ⟨number, hnumber⟩ := Option.isSome_iff_exists.1 hadmits
      have hmember := (EnumInfo.member?_eq_some_iff.1 hnumber).2
      exact readValue?_member hbefore hbehind hmember (htight member hmember).1
        (htight member hmember).2
    | _ => cases hadmits

/-- **Coercion reads back what was printed, and nothing out of range.** Blanks around an integer, a
member or a truth value do not matter. A numeral is taken exactly if its value is a 64-bit integer,
then for that value, and no text but a numeral is taken for an integer. A text that is no member or
no truth value is a structural error, and a text for a property of texts or objects is kept as it
is. Whatever coercion yields is admitted by the kind and adapted to itself. -/
theorem coerceFor_reads_back (p : Pass) (name : String) :
    (∀ {before behind : String}, IsPadding before → IsPadding behind →
      (∀ n : Int64, p.coerceFor .int name (.text (before ++ n.toInt.repr ++ behind)) =
        .ok (.int n)) ∧
      (∀ numeral : Numeral, FitsInt64 numeral.value →
        ∃ n : Int64, n.toInt = numeral.value ∧
          p.coerceFor .int name (.text (before ++ numeral.text ++ behind)) = .ok (.int n)) ∧
      (∀ numeral : Numeral, ¬FitsInt64 numeral.value →
        p.coerceFor .int name (.text (before ++ numeral.text ++ behind)) =
          .error (unreadableText name .int (before ++ numeral.text ++ behind))) ∧
      (∀ (info : EnumInfo) (member : String), member ∈ info.members → StartsTight member →
        EndsTight member →
        p.coerceFor (.enum info) name (.text (before ++ member ++ behind)) = .ok (.enum member)) ∧
      ∀ (b : Bool) (word : String), word ∈ boolWords b →
        p.coerceFor .bool name (.text (before ++ word ++ behind)) = .ok (.bool b)) ∧
    (∀ (text : String) (value : Value), p.coerceFor .int name (.text text) = .ok value →
      ∃ (numeral : Numeral) (n : Int64), trimmed text = numeral.text ∧ n.toInt = numeral.value ∧
      value = .int n) ∧
    (∀ (info : EnumInfo) (text : String), trimmed text ∉ info.members →
      p.coerceFor (.enum info) name (.text text) = .error (unreadableText name (.enum info) text)) ∧
    (∀ text : String, (∀ b, trimmed text ∉ boolWords b) →
      p.coerceFor .bool name (.text text) = .error (unreadableText name .bool text)) ∧
    (∀ text : String, p.coerceFor .text name (.text text) = .ok (.text text) ∧
      p.coerceFor .object name (.text text) = .ok (.text text)) ∧
    ∀ (kind : ValueKind) (raw : RawValue) (value : Value), p.coerceFor kind name raw = .ok value →
      kind.admits value = true ∧ kind.adapt value = some value := by
  refine ⟨?_, ?_, ?_, ?_, ?_, ?_⟩
  · intro before behind hbefore hbehind
    refine ⟨?_, ?_, ?_, ?_, ?_⟩
    · intro n
      exact coerceFor_text_eq_ok_iff.2 (readValue?_repr hbefore hbehind n)
    · intro numeral hfits
      obtain ⟨n, hn, hsome⟩ := int64?_of_fits hfits
      refine ⟨n, hn, coerceFor_text_eq_ok_iff.2 ?_⟩
      rw [readValue?_numeral hbefore hbehind, hsome]
      rfl
    · intro numeral hfits
      apply coerceFor_text_of_none
      rw [readValue?_numeral hbefore hbehind, int64?_of_not_fits hfits]
      rfl
    · intro info member hmember hstarts hends
      exact coerceFor_text_eq_ok_iff.2 (readValue?_member hbefore hbehind hmember hstarts hends)
    · intro b word hword
      exact coerceFor_text_eq_ok_iff.2 (readValue?_boolWord hbefore hbehind hword)
  · intro text value hvalue
    exact exists_numeral_of_readValue? (coerceFor_text_eq_ok_iff.1 hvalue)
  · intro info text hnone
    exact coerceFor_text_of_none (readValue?_noMember hnone)
  · intro text hnone
    exact coerceFor_text_of_none (readValue?_noBoolWord hnone)
  · intro text
    exact ⟨coerceFor_text_eq_ok_iff.2 rfl, coerceFor_text_eq_ok_iff.2 rfl⟩
  · intro kind raw value hvalue
    have hadmits : kind.admits value = true := admits_of_coerce (Pass.coerce_of_coerceFor hvalue)
    exact ⟨hadmits, ValueKind.adapt_of_admits hadmits⟩

/-- The numeral for the greatest 64-bit integer, with a sign and a leading zero. -/
def greatestNumeral : Numeral :=
  ⟨"+", "09223372036854775807", by decide, by decide, by simp⟩

/-- The numeral for the number behind the greatest 64-bit integer. -/
def overflowingNumeral : Numeral :=
  ⟨"", "9223372036854775808", by decide, by decide, by simp⟩

/-- A pass without objects. -/
def emptyPass : Pass :=
  .start .empty (.ofCatalog .empty none)

/-- Both sides of the upper limit, a member, a truth value, and texts that name none. -/
theorem coerceFor_reads_back_limits :
    emptyPass.coerceFor .int "P" (.text " +09223372036854775807\t") =
      .ok (.int 9223372036854775807) ∧
      emptyPass.coerceFor .int "P" (.text " 9223372036854775808\t") =
        .error (unreadableText "P" .int " 9223372036854775808\t") ∧
      emptyPass.coerceFor (.enum ⟨"Side", ["Left", "Right"]⟩) "P" (.text " Left\t") =
        .ok (.enum "Left") ∧
      emptyPass.coerceFor (.enum ⟨"Side", ["Left", "Right"]⟩) "P" (.text " left ") =
        .error (unreadableText "P" (.enum ⟨"Side", ["Left", "Right"]⟩) " left ") ∧
      emptyPass.coerceFor .bool "P" (.text " True\t") = .ok (.bool true) ∧
      emptyPass.coerceFor .bool "P" (.text "TRUE") = .error (unreadableText "P" .bool "TRUE") ∧
      ValueKind.adapt .int (.int (-7)) = some (.int (-7)) := by
  obtain ⟨hpadded, -, hmember, hbool, -, hagree⟩ := coerceFor_reads_back emptyPass "P"
  have hspace : IsPadding " " := by simp [IsPadding, isBlank]
  have htab : IsPadding "\t" := by simp [IsPadding, isBlank]
  obtain ⟨hint, hinside, houtside, henum, hword⟩ := hpadded hspace htab
  refine ⟨?_, houtside overflowingNumeral (by decide), ?_, ?_,
    hword true "True" (by decide), ?_, ?_⟩
  · obtain ⟨n, hn, hvalue⟩ := hinside greatestNumeral (by decide)
    have hgreatest : n = 9223372036854775807 := Int64.toInt_inj.1 hn
    rw [← hgreatest]
    exact hvalue
  · exact henum ⟨"Side", ["Left", "Right"]⟩ "Left" (by decide) (by simp [StartsTight, isBlank])
      (by simp [EndsTight, isBlank])
  · exact hmember ⟨"Side", ["Left", "Right"]⟩ " left " (by decide)
  · exact hbool "TRUE" (by decide)
  · exact (hagree .int _ _ (hint (-7))).2

end MarkupForms.Hydration
