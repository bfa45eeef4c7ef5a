import MarkupForms.Accessors.TypePath

/-!
# Paths by whole segments

The path to an element's type compares the element's namespace with that of the document's class as
texts. What it finds is a relation between their dotted segments: the path is relative to the crate
exactly if the segments of the class's namespace come first among those of the element's. Empty
segments count here, although a path leaves them out.
-/

namespace MarkupForms.Accessors

open Markup

/-- What stands between the dots of a name, from the first to the last. -/
def dottedSegments (name : String) : List (List Char) :=
  name.toList.splitOn '.'

/-- The segments that are not empty as the front part of a path, in small letters. -/
def modulePath (segments : List (List Char)) : String :=
  String.join ((segments.filter (· ≠ [])).map fun segment =>
    String.ofList (segment.map Char.toLower) ++ "::")

/-! ## Segments -/

theorem intercalate_append {sep : Char} {lead behind : List (List Char)} (hlead : lead ≠ [])
    (hbehind : behind ≠ []) :
    [sep].intercalate (lead ++ behind) = [sep].intercalate lead ++ sep ::
      [sep].intercalate behind := by
  induction lead with
  | nil => exact absurd rfl hlead
  | cons segment lead ih =>
    cases lead with
    | nil =>
      obtain ⟨first, more, rfl⟩ := List.exists_cons_of_ne_nil hbehind
      simp [List.intercalate_cons_cons]
    | cons next lead =>
      have hrest := ih (by simp)
      rw [List.cons_append] at hrest
      rw [List.cons_append, List.cons_append, List.intercalate_cons_cons, hrest,
        List.intercalate_cons_cons]
      simp

/-- The segments of one text come first among those of another one exactly if the texts are the
same, or a separator stands behind the first where it ends in the other. -/
theorem splitOn_eq_append_iff {sep : Char} {lead cs : List Char} {rest : List (List Char)} :
    cs.splitOn sep = lead.splitOn sep ++ rest ↔
      (cs = lead ∧ rest = []) ∨ ∃ behind, cs = lead ++ sep :: behind ∧
      rest = behind.splitOn sep := by
  constructor
  · intro hsplit
    -- joining the segments gives both texts back, so it shows what stands between them
    have hjoin := congrArg [sep].intercalate hsplit
    rw [List.intercalate_splitOn] at hjoin
    by_cases hrest : rest = []
    · left
      subst hrest
      rw [List.append_nil, List.intercalate_splitOn] at hjoin
      exact ⟨hjoin, rfl⟩
    · right
      rw [intercalate_append (List.splitOn_ne_nil sep lead) hrest,
        List.intercalate_splitOn] at hjoin
      refine ⟨[sep].intercalate rest, hjoin, ?_⟩
      rw [hjoin, List.splitOn_append_cons_self] at hsplit
      exact (List.append_cancel_left hsplit).symm
  · rintro (⟨rfl, rfl⟩ | ⟨behind, rfl, rfl⟩)
    · simp
    · exact List.splitOn_append_cons_self lead behind

/-! ## Small letters -/

theorem isAsciiUpper_eq_isUpper (c : Char) : Text.isAsciiUpper c = c.isUpper :=
  (Bool.decide_and (65 ≤ c.toNat) (c.toNat ≤ 90)).symm

theorem lowerAscii_eq_toLower (c : Char) : Text.lowerAscii c = c.toLower := by
  rw [Text.lowerAscii, isAsciiUpper_eq_isUpper]
  unfold Char.toLower
  by_cases hupper : c.isUpper = true
  · have hletter : c.val ≥ 'A'.val ∧ c.val ≤ 'Z'.val := of_decide_eq_true hupper
    have hle : c.toNat ≤ 90 := hletter.2
    have hvalid : (c.toNat + 32).isValidChar := Or.inl (by omega)
    rw [if_pos hupper, dif_pos hletter]
    apply Char.ext
    apply UInt32.toNat_inj.1
    show (Char.ofNat (c.toNat + 32)).toNat = (c.val + 32).toNat
    rw [Char.ofNat, dif_pos hvalid, UInt32.toNat_add]
    show c.toNat + 32 = (c.toNat + 32) % 2 ^ 32
    omega
  · rw [if_neg hupper, dif_neg fun hletter => hupper (decide_eq_true hletter)]

theorem pathSegments_eq (name : List Char) : pathSegments name = modulePath (name.splitOn '.') := by
  have hempty : ∀ segment : List Char, (!segment.isEmpty) = decide (segment ≠ []) := by
    intro segment
    cases segment <;> rfl
  unfold pathSegments modulePath
  rw [Text.splitAll_eq_splitOn, funext lowerAscii_eq_toLower, funext hempty]

/-! ## Below the namespace of the class -/

theorem below?_eq_some_iff {classNamespace namespaceName : String} {rest : List Char} :
    below? classNamespace namespaceName = some rest ↔
      (namespaceName = classNamespace ∧ rest = []) ∨
      namespaceName.toList = classNamespace.toList ++ '.' :: rest := by
  unfold below?
  split
  · next heq =>
    subst heq
    simp [eq_comm]
  · next hne => simp [Text.strip?_eq_some_iff, hne]

/-- A namespace is below that of the class exactly if the segments of the class's come first in it,
and then its other segments are those of what is left. -/
theorem below?_of_segments {classNamespace namespaceName : String} {rest : List (List Char)}
    (h : dottedSegments namespaceName = dottedSegments classNamespace ++ rest) :
    ∃ left, below? classNamespace namespaceName = some left ∧
    pathSegments left = modulePath rest := by
  rcases splitOn_eq_append_iff.1 h with ⟨hsame, rfl⟩ | ⟨behind, hbehind, rfl⟩
  · exact ⟨[], below?_eq_some_iff.2 (Or.inl ⟨String.toList_injective hsame, rfl⟩), by decide⟩
  · exact ⟨behind, below?_eq_some_iff.2 (Or.inr hbehind), pathSegments_eq behind⟩

theorem below?_eq_none {classNamespace namespaceName : String}
    (h : ¬dottedSegments classNamespace <+: dottedSegments namespaceName) :
    below? classNamespace namespaceName = none := by
  cases hbelow : below? classNamespace namespaceName with
  | none => rfl
  | some left =>
    exfalso
    apply h
    rcases below?_eq_some_iff.1 hbelow with ⟨rfl, -⟩ | hbehind
    · exact List.prefix_refl _
    · exact ⟨left.splitOn '.', (splitOn_eq_append_iff.2 (Or.inr ⟨left, hbehind, rfl⟩)).symm⟩

/-- Characters that are no dot continue a segment, they do not start one. -/
theorem not_prefix_of_continued {classNamespace : String} {c : Char} (hc : c ≠ '.')
    (rest : List Char) :
    ¬dottedSegments classNamespace <+: dottedSegments
      (classNamespace ++ String.ofList (c :: rest)) := by
  rintro ⟨segments, hsegments⟩
  rcases splitOn_eq_append_iff.1 hsegments.symm with ⟨hsame, -⟩ | ⟨behind, hbehind, -⟩
  · simp at hsame
  · rw [String.toList_append, String.toList_ofList] at hbehind
    have htail := List.append_cancel_left hbehind
    exact hc (List.cons.inj htail).1

/-! ## Paths -/

section Foreign

variable {name : ExpandedName} {decl : Declaration} {classNamespace : Option String}

theorem typePath_of_below (hforeign : isFramework name.uri = false)
    (hdecl : Declaration.parse name.uri = .ok decl) {left : List Char}
    (h : classNamespace.bind (below? · (decl.namespaceName.getD "")) = some left) :
    typePath classNamespace name = .ok ("crate::" ++ pathSegments left ++ name.localName) := by
  unfold typePath
  rw [hforeign, hdecl]
  simp only [Bool.false_eq_true, if_false, h]

theorem typePath_of_not_below (hforeign : isFramework name.uri = false)
    (hdecl : Declaration.parse name.uri = .ok decl)
    (h : classNamespace.bind (below? · (decl.namespaceName.getD "")) = none) :
    typePath classNamespace name =
      .ok ("::" ++ pathSegments (decl.namespaceName.getD "").toList ++ name.localName) := by
  unfold typePath
  rw [hforeign, hdecl]
  simp only [Bool.false_eq_true, if_false, h]

/-- Without the segments of the class's namespace at its start, all of the element's namespace is in
the path. -/
theorem typePath_of_not_prefix (hforeign : isFramework name.uri = false)
    (hdecl : Declaration.parse name.uri = .ok decl) (h : ∀ around, classNamespace = some around →
      ¬dottedSegments around <+: dottedSegments (decl.namespaceName.getD "")) :
    typePath classNamespace name =
      .ok ("::" ++ modulePath (dottedSegments (decl.namespaceName.getD "")) ++ name.localName) := by
  have hbelow : classNamespace.bind (below? · (decl.namespaceName.getD "")) = none := by
    cases classNamespace with
    | none => rfl
    | some around => exact below?_eq_none (h around rfl)
  rw [typePath_of_not_below hforeign hdecl hbelow, pathSegments_eq, dottedSegments]

end Foreign

/-- **Element types have paths by whole segments.** Let an element be in a foreign namespace that
declares a namespace, or none, which counts as the empty one. If its segments are those of the
class's namespace and others, its path is relative to the crate and made of the others. If not, or
if the class has no namespace, its path is absolute and made of all segments. So it is absolute if
the class's namespace goes on within a segment. -/
theorem typePath_by_segments (name : ExpandedName) {decl : Declaration}
    (hforeign : isFramework name.uri = false) (hdecl : Declaration.parse name.uri = .ok decl) :
    (∀ (classNamespace : String) (rest : List (List Char)),
        dottedSegments (decl.namespaceName.getD "") = dottedSegments classNamespace ++ rest →
          typePath (some classNamespace) name = .ok
            ("crate::" ++ modulePath rest ++ name.localName)) ∧
      (∀ classNamespace : Option String,
        (∀ around, classNamespace = some around →
          ¬dottedSegments around <+: dottedSegments (decl.namespaceName.getD "")) →
          typePath classNamespace name =
            .ok ("::" ++ modulePath (dottedSegments (decl.namespaceName.getD "")) ++
              name.localName)) ∧
      ∀ (classNamespace : String) (c : Char) (rest : List Char),
        decl.namespaceName.getD "" = classNamespace ++ String.ofList (c :: rest) → c ≠ '.' →
          typePath (some classNamespace) name =
            .ok ("::" ++ modulePath (dottedSegments (decl.namespaceName.getD "")) ++
              name.localName) := by
  refine ⟨?_, ?_, ?_⟩
  · intro classNamespace rest hsegments
    obtain ⟨left, hleft, hrest⟩ := below?_of_segments hsegments
    have hbelow : (some classNamespace).bind (below? · (decl.namespaceName.getD "")) = some left :=
      hleft
    rw [typePath_of_below hforeign hdecl hbelow, hrest]
  · intro classNamespace hnone
    exact typePath_of_not_prefix hforeign hdecl hnone
  · intro classNamespace c rest hcontinued hc
    apply typePath_of_not_prefix hforeign hdecl
    intro around haround
    cases haround
    rw [hcontinued]
    exact not_prefix_of_continued hc rest

/-- The name of an element in the given foreign namespace. -/
def gaugeName (uri : String) : ExpandedName :=
  ⟨"w:Gauge", "Gauge", uri⟩

/-- Below the class's namespace, without one, and in a namespace that only starts with the same
characters. -/
theorem typePath_by_segments_gaugeName :
    typePath (some "Kiln.Sample") (gaugeName
      "clr-namespace:Kiln.Sample.Widgets;assembly=Kiln.Sample") =
        .ok "crate::widgets::Gauge" ∧
      typePath none (gaugeName "clr-namespace:Kiln.Sample.Widgets;assembly=Kiln.Sample") =
        .ok "::kiln::sample::widgets::Gauge" ∧
      typePath (some "Kiln.Sample") (gaugeName "clr-namespace:Kiln.SampleX") =
        .ok "::kiln::samplex::Gauge" := by
  have hwidgets : Declaration.parse "clr-namespace:Kiln.Sample.Widgets;assembly=Kiln.Sample" =
      .ok ⟨some "Kiln.Sample.Widgets", none, some "Kiln.Sample"⟩ := by rfl
  have hother : Declaration.parse "clr-namespace:Kiln.SampleX" = .ok ⟨some "Kiln.SampleX", none,
    none⟩ := by rfl
  obtain ⟨hbelow, habsolute, -⟩ := typePath_by_segments
    (gaugeName "clr-namespace:Kiln.Sample.Widgets;assembly=Kiln.Sample") (by decide) hwidgets
  obtain ⟨-, -, hcontinued⟩ := typePath_by_segments (gaugeName "clr-namespace:Kiln.SampleX")
    (by decide) hother
  refine ⟨?_, ?_, ?_⟩
  · rw [hbelow "Kiln.Sample" ["Widgets".toList] (by decide)]
    rfl
  · rw [habsolute none (by simp)]
    rfl
  · rw [hcontinued "Kiln.Sample" 'X' [] (by decide) (by decide)]
    rfl

end MarkupForms.Accessors
