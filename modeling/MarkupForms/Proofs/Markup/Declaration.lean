import MarkupForms.Markup.Declaration
import MarkupForms.Proofs.Text.Padding
import MarkupForms.Types.Basic

/-!
# Declarations are read as they were written

A segment is trimmed before it is read, so the blanks around it do not count, while blanks inside it
do. A mark at its start tells what it names, and a segment without a mark is a dotted name. That is
cut at its last dot if something stands before the dot, so putting the parts together with a dot
again gives the name back in any case. Full names of types are written in this way.
-/

namespace MarkupForms.Markup

open Text

/-- The text starts like a segment that names a namespace or a module. -/
def Marked (s : String) : Prop :=
  "clr-namespace:".toList <+: s.toList ∨ "assembly=".toList <+: s.toList

/-- A name that can stand behind a mark: not empty, within one segment, and not cut off by
trimming. -/
structure SegmentName (name : String) : Prop where
  nonempty : name ≠ ""
  within : ';' ∉ name.toList
  endsTight : EndsTight name

/-- A segment that names a namespace, with blanks around it. -/
def namespaceSegment (before name behind : String) : String :=
  before ++ ("clr-namespace:" ++ name) ++ behind

/-- A segment that names a module, with blanks around it. -/
def moduleSegment (before name behind : String) : String :=
  before ++ ("assembly=" ++ name) ++ behind

/-! ## One segment -/

namespace Declaration

variable {decl : Declaration}

theorem withDotted_of_notMem {name : List Char} (h : '.' ∉ name) :
    decl.withDotted name = { decl with typeName := some (String.ofList name) } := by
  rw [withDotted, splitAtLast?_eq_none_iff.2 h]

theorem withDotted_of_dot {before after : List Char} (hne : before ≠ []) (h : '.' ∉ after) :
    decl.withDotted (before ++ '.' :: after) =
      { decl with
        namespaceName := some (String.ofList before)
        typeName := some (String.ofList after) } := by
  rw [withDotted, splitAtLast?_append before h]
  cases before with
  | nil => exact absurd rfl hne
  | cons c before => rfl

/-- What a dotted name says: the whole name is the type's, or a namespace, a dot and the type's name
make it up. -/
theorem withDotted_cases (decl : Declaration) (name : List Char) :
    decl.withDotted name = { decl with typeName := some (String.ofList name) } ∨
      ∃ before after, name = before ++ '.' :: after ∧ decl.withDotted name =
        { decl with
          namespaceName := some (String.ofList before)
          typeName := some (String.ofList after) } := by
  cases hcut : splitAtLast? '.' name with
  | none =>
    left
    rw [withDotted, hcut]
  | some parts =>
    obtain ⟨before, after⟩ := parts
    obtain ⟨rfl, hafter⟩ := splitAtLast?_eq_some hcut
    cases before with
    | nil =>
      left
      rw [withDotted, hcut]
    | cons c before =>
      right
      exact ⟨c :: before, after, rfl, withDotted_of_dot (by simp) hafter⟩

theorem withSegment_namespace {segment name : List Char}
    (h : trim segment = "clr-namespace:".toList ++ name) (hne : name ≠ []) :
    decl.withSegment segment = .ok { decl with namespaceName := some (String.ofList name) } := by
  unfold withSegment
  simp only [h]
  cases name with
  | nil => exact absurd rfl hne
  | cons c name => rfl

theorem withSegment_module {segment name : List Char}
    (h : trim segment = "assembly=".toList ++ name) (hne : name ≠ []) :
    decl.withSegment segment = .ok { decl with moduleName := some (String.ofList name) } := by
  have hmark : strip? "clr-namespace:".toList ("assembly=".toList ++ name) = none := by
    simp [strip?]
  unfold withSegment
  simp only [h, hmark]
  cases name with
  | nil => exact absurd rfl hne
  | cons c name => rfl

/-- A segment without a mark is a dotted name. -/
theorem withSegment_unmarked {segment : List Char} (h : ¬Marked (String.ofList (trim segment))) :
    decl.withSegment segment =
      if (trim segment).isEmpty then .error .emptySegment
      else .ok (decl.withDotted (trim segment)) := by
  have hnone : ∀ mark : List Char, ¬mark <+: trim segment → strip? mark (trim segment) = none := by
    intro mark hmark
    cases hstrip : strip? mark (trim segment) with
    | none => rfl
    | some rest => exact absurd ⟨rest, (strip?_eq_some_iff.1 hstrip).symm⟩ hmark
  have htext : (String.ofList (trim segment)).toList = trim segment := String.toList_ofList
  unfold Marked at h
  rw [htext, not_or] at h
  unfold withSegment
  simp only [hnone _ h.1, hnone _ h.2]

/-! ## Whole texts -/

/-- A text without semicolons is one segment. -/
theorem parse_single {text : String} (h : ';' ∉ text.toList) :
    parse text = withSegment ⟨none, none, none⟩ text.toList := by
  unfold parse
  rw [splitAll_eq_splitOn, List.splitOn_eq_singleton h]
  show withSegments _ [text.toList] = _
  rw [withSegments]
  cases withSegment ⟨none, none, none⟩ text.toList <;> rfl

/-- A text with one semicolon is two segments, of which the second one is read last. -/
theorem parse_pair {first second : String} (hfirst : ';' ∉ first.toList)
    (hsecond : ';' ∉ second.toList) {decl : Declaration}
    (h : withSegment ⟨none, none, none⟩ first.toList = .ok decl) :
    parse (first ++ ";" ++ second) = decl.withSegment second.toList := by
  have hsplit : (first ++ ";" ++ second).toList.splitOn ';' = [first.toList, second.toList] := by
    rw [String.toList_append, String.toList_append, List.append_assoc]
    show (first.toList ++ ';' :: second.toList).splitOn ';' = _
    rw [List.splitOn_append_cons_self, List.splitOn_eq_singleton hfirst,
      List.splitOn_eq_singleton hsecond]
    rfl
  unfold parse
  rw [splitAll_eq_splitOn, hsplit]
  show withSegments _ [first.toList, second.toList] = _
  rw [withSegments, h]
  dsimp only
  rw [withSegments]
  cases decl.withSegment second.toList <;> rfl

/-! ## Segments that name a namespace or a module -/

section Segments

variable {before name behind : String}

theorem notMem_mark_append {c : Char} {mark : String} (hmark : c ∉ mark.toList)
    (hblank : isBlank c = false) (hbefore : IsPadding before) (hname : c ∉ name.toList)
    (hbehind : IsPadding behind) :
    c ∉ (before ++ (mark ++ name) ++ behind).toList := by
  simp only [String.toList_append, List.mem_append, not_or]
  exact ⟨⟨notMem_of_isPadding hbefore hblank, hmark, hname⟩, notMem_of_isPadding hbehind hblank⟩

theorem trim_mark_append {mark : String} (hmark : mark ≠ "") (hstarts : StartsTight mark)
    (hbefore : IsPadding before) (hname : SegmentName name) (hbehind : IsPadding behind) :
    trim (before ++ (mark ++ name) ++ behind).toList = mark.toList ++ name.toList := by
  rw [trim_padded_of_tight hbefore hbehind (startsTight_append hmark hstarts name)
    (endsTight_append hname.nonempty hname.endsTight mark), String.toList_append]

theorem withSegment_namespaceSegment (hbefore : IsPadding before) (hname : SegmentName name)
    (hbehind : IsPadding behind) :
    decl.withSegment (namespaceSegment before name behind).toList =
      .ok { decl with namespaceName := some name } := by
  have htrim : trim (namespaceSegment before name behind).toList = "clr-namespace:".toList ++
      name.toList :=
    trim_mark_append (by decide) (by simp [StartsTight, isBlank]) hbefore hname hbehind
  rw [withSegment_namespace htrim (mt String.toList_eq_nil_iff.1 hname.nonempty),
    String.ofList_toList]

theorem withSegment_moduleSegment (hbefore : IsPadding before) (hname : SegmentName name)
    (hbehind : IsPadding behind) :
    decl.withSegment (moduleSegment before name behind).toList =
      .ok { decl with moduleName := some name } := by
  have htrim : trim (moduleSegment before name behind).toList = "assembly=".toList ++ name.toList :=
    trim_mark_append (by decide) (by simp [StartsTight, isBlank]) hbefore hname hbehind
  rw [withSegment_module htrim (mt String.toList_eq_nil_iff.1 hname.nonempty), String.ofList_toList]

theorem notMem_namespaceSegment (hbefore : IsPadding before) (hname : SegmentName name)
    (hbehind : IsPadding behind) :
    ';' ∉ (namespaceSegment before name behind).toList :=
  notMem_mark_append (by decide) (by decide) hbefore hname.within hbehind

theorem notMem_moduleSegment (hbefore : IsPadding before) (hname : SegmentName name)
    (hbehind : IsPadding behind) :
    ';' ∉ (moduleSegment before name behind).toList :=
  notMem_mark_append (by decide) (by decide) hbefore hname.within hbehind

/-- A namespace alone. -/
theorem parse_namespaceSegment (hbefore : IsPadding before) (hname : SegmentName name)
    (hbehind : IsPadding behind) :
    parse (namespaceSegment before name behind) = .ok ⟨some name, none, none⟩ := by
  rw [parse_single (notMem_namespaceSegment hbefore hname hbehind),
    withSegment_namespaceSegment hbefore hname hbehind]

variable {before' name' behind' : String}

/-- A namespace and then a module. -/
theorem parse_namespaceSegment_moduleSegment (hbefore : IsPadding before) (hname : SegmentName name)
    (hbehind : IsPadding behind) (hbefore' : IsPadding before') (hname' : SegmentName name')
    (hbehind' : IsPadding behind') :
    parse (namespaceSegment before name behind ++ ";" ++ moduleSegment before' name' behind') =
      .ok ⟨some name, none, some name'⟩ := by
  rw [parse_pair (notMem_namespaceSegment hbefore hname hbehind)
    (notMem_moduleSegment hbefore' hname' hbehind')
    (withSegment_namespaceSegment hbefore hname hbehind), withSegment_moduleSegment hbefore' hname'
    hbehind']

/-- A module and then a namespace. -/
theorem parse_moduleSegment_namespaceSegment (hbefore : IsPadding before) (hname : SegmentName name)
    (hbehind : IsPadding behind) (hbefore' : IsPadding before') (hname' : SegmentName name')
    (hbehind' : IsPadding behind') :
    parse (moduleSegment before' name' behind' ++ ";" ++ namespaceSegment before name behind) =
      .ok ⟨some name, none, some name'⟩ := by
  rw [parse_pair (notMem_moduleSegment hbefore' hname' hbehind')
    (notMem_namespaceSegment hbefore hname hbehind)
    (withSegment_moduleSegment hbefore' hname' hbehind'), withSegment_namespaceSegment hbefore
    hname hbehind]

end Segments

/-! ## Dotted names -/

/-- Full names of types are read as the namespace and the name that they were made of. -/
theorem parse_fullName (type : TypeDecl) (hnamespace : ';' ∉ type.namespaceName.toList)
    (hname : ';' ∉ type.name.toList) (hdot : '.' ∉ type.name.toList) (hmark : ¬Marked type.fullName)
    (hstarts : StartsTight type.fullName) (hends : EndsTight type.fullName)
    (hne : type.fullName ≠ "") :
    parse type.fullName =
      .ok ⟨if type.namespaceName = "" then none else some type.namespaceName, some type.name,
        none⟩ := by
  have hsemicolon : ';' ∉ type.fullName.toList := by
    unfold TypeDecl.fullName
    split
    · exact hname
    · simp [hnamespace, hname]
  have htrim : trim type.fullName.toList = type.fullName.toList := trim_of_ends hstarts hends
  rw [parse_single hsemicolon, withSegment_unmarked (by rwa [htrim, String.ofList_toList]), htrim,
    if_neg (by simpa using hne)]
  congr 1
  by_cases hempty : type.namespaceName = ""
  · have hfull : type.fullName = type.name := by simp [TypeDecl.fullName, hempty]
    rw [hfull, withDotted_of_notMem hdot, if_pos hempty, String.ofList_toList]
  · have hfull : type.fullName.toList = type.namespaceName.toList ++ '.' :: type.name.toList := by
      simp [TypeDecl.fullName, hempty]
    rw [hfull, withDotted_of_dot (by simpa using hempty) hdot, if_neg hempty]
    rw [String.ofList_toList, String.ofList_toList]

end Declaration

end MarkupForms.Markup
