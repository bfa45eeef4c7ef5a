import Mathlib.Data.List.Nodup
import MarkupForms.Proofs.Accessors.Tags

/-!
# The list of fields

A scan walks over the elements behind the root and keeps one field for each id. A field stands where
its id occurs first, and has the type of the last element that has the id. The ids in the list
differ, but different ids may fold to one name. Then the scan fails at the first field of the list
whose name is in use, and says which field uses it.

Ids are found by namespace: the attribute `Id` in no namespace, else the one of markup metadata. No
namespace does not mean no prefix, because a prefix may stand for the empty namespace
(`not_scan_writtenIds`).
-/

namespace MarkupForms.Accessors

open Markup Hydration

/-! ## Elements with ids -/

/-- The element with its id, if it has one and is no property element. -/
def namedTag? (idOf : StartTag → Option String) (tag : StartTag) : Option (String × StartTag) :=
  if tag.isPropertyElement then none else (idOf tag).map fun id => (id, tag)

/-- The elements that have an id, each with its id, in order. -/
def namedTags (idOf : StartTag → Option String) (tags : List StartTag) : List (String × StartTag) :=
  tags.filterMap (namedTag? idOf)

/-- The id folds to a name, and the element's namespace leads to a type. -/
def Usable (classNamespace : Option String) (named : String × StartTag) : Prop :=
  (∃ name, fieldName? named.1 = some name) ∧ ∃ path, typePath classNamespace named.2.name = .ok path

/-- No two of the ids fold to one name. -/
def FoldApart (ids : List String) : Prop :=
  ∀ first ∈ ids, ∀ second ∈ ids, fieldName? first = fieldName? second → first = second

/-- The fields are those of the elements: one for each id, in the order in which the ids first
occur, each with the name that its id folds to and the type of the last element that has the id. -/
structure Lists (classNamespace : Option String) (named : List (String × StartTag))
    (fields : List Field) : Prop where
  ids : fields.map Field.id = (named.map Prod.fst).eraseDups
  names : ∀ field ∈ fields, fieldName? field.id = some field.name
  types : ∀ field ∈ fields, ∃ before tag behind, named = before ++ (field.id, tag) :: behind ∧
    field.id ∉ behind.map Prod.fst ∧ typePath classNamespace tag.name = .ok field.typePath

/-- The second field is the first one whose name is in use, and the first one uses it. -/
def Collide (fields : List Field) (first second : Field) : Prop :=
  ∃ before behind, fields = before ++ second :: behind ∧ (before.map Field.name).Nodup ∧
    first ∈ before ∧ first.name = second.name

theorem Lists.nodup_ids {classNamespace : Option String} {named : List (String × StartTag)}
    {fields : List Field} (h : Lists classNamespace named fields) :
    (fields.map Field.id).Nodup := by
  rw [h.ids, ← OrderedMap.keys_ofList]
  exact OrderedMap.nodup_keys_ofList named

/-- Names repeat in the list exactly if different ids fold to one. -/
theorem Lists.nodup_names_iff {classNamespace : Option String} {named : List (String × StartTag)}
    {fields : List Field} (h : Lists classNamespace named fields) :
    (fields.map Field.name).Nodup ↔ FoldApart (named.map Prod.fst) := by
  have hmem : ∀ id, id ∈ named.map Prod.fst ↔ ∃ field ∈ fields, field.id = id := by
    intro id
    rw [← List.mem_eraseDups, ← h.ids, List.mem_map]
  constructor
  · intro hnames first hfirst second hsecond hsame
    obtain ⟨field, hfield, rfl⟩ := (hmem first).1 hfirst
    obtain ⟨other, hother, rfl⟩ := (hmem second).1 hsecond
    rw [h.names field hfield, h.names other hother] at hsame
    have heq : field = other := List.inj_on_of_nodup_map hnames hfield hother
      (Option.some.inj hsame)
    rw [heq]
  · intro hapart
    refine (List.nodup_map_iff_inj_on (List.Nodup.of_map _ h.nodup_ids)).2 ?_
    intro field hfield other hother hname
    apply List.inj_on_of_nodup_map h.nodup_ids hfield hother
    apply hapart field.id ((hmem _).2 ⟨field, hfield, rfl⟩) other.id
      ((hmem _).2 ⟨other, hother, rfl⟩)
    rw [h.names field hfield, h.names other hother, hname]

/-- There is only one such list. -/
theorem Lists.unique {classNamespace : Option String} {named : List (String × StartTag)}
    {fields others : List Field} (h : Lists classNamespace named fields)
    (hothers : Lists classNamespace named others) : fields = others := by
  have hsame : ∀ field ∈ fields, ∀ other ∈ others, field.id = other.id → field = other := by
    intro field hfield other hother hid
    obtain ⟨before, tag, behind, hnamed, hlast, htype⟩ := h.types field hfield
    obtain ⟨before', tag', behind', hnamed', hlast', htype'⟩ := hothers.types other hother
    have hget := OrderedMap.get?_ofList_of_split before tag hlast
    have hget' := OrderedMap.get?_ofList_of_split before' tag' hlast'
    rw [← hnamed] at hget
    rw [← hnamed', ← hid, hget] at hget'
    cases hget'
    have hname := h.names field hfield
    rw [hid, hothers.names other hother] at hname
    rw [htype] at htype'
    cases field
    cases other
    cases hid
    cases hname
    cases htype'
    rfl
  have hids : fields.map Field.id = others.map Field.id := by rw [h.ids, hothers.ids]
  apply List.ext_getElem
  · simpa using congrArg List.length hids
  · intro i hi hi'
    apply hsame _ (List.getElem_mem hi) _ (List.getElem_mem hi')
    have hget := congrArg (fun ids => ids[i]?) hids
    simpa [hi, hi'] using hget

/-! ## The walk -/

section Walk

variable {ending : Option ScanError} {classNamespace : Option String}

theorem fieldOf_of_usable {named : String × StartTag} (h : Usable classNamespace named) :
    ∃ field, fieldOf classNamespace named.2 named.1 = .ok field := by
  obtain ⟨⟨name, hname⟩, path, hpath⟩ := h
  unfold fieldOf
  rw [hname, hpath]
  exact ⟨_, rfl⟩

theorem collectTags_of_unnamed {tag : StartTag} (h : namedTag? elementId? tag = none)
    (fields : OrderedMap Field) (tags : List StartTag) :
    collectTags ending classNamespace fields (tag :: tags) =
      collectTags ending classNamespace fields tags := by
  have hadd : addElement classNamespace fields tag = (.ok fields, []) := by
    unfold namedTag? at h
    unfold addElement
    split
    · rfl
    · next helement =>
      rw [if_neg helement, Option.map_eq_none_iff] at h
      rw [h]
  rw [collectTags, hadd]

/-- An element with an id puts its field in the place of the one that the id had before, or behind
all others. -/
theorem collectTags_of_named {tag : StartTag} {named : String × StartTag}
    (h : namedTag? elementId? tag = some named) (fields : OrderedMap Field) (tags : List StartTag) :
    collectTags ending classNamespace fields (tag :: tags) =
      match fieldOf classNamespace named.2 named.1 with
      | .error error => .error error
      | .ok field => collectTags ending classNamespace (fields.insert named.1 field) tags := by
  unfold namedTag? at h
  by_cases helement : tag.isPropertyElement = true
  · rw [if_pos helement] at h
    cases h
  · rw [if_neg helement] at h
    obtain ⟨id, hid, rfl⟩ := Option.map_eq_some_iff.1 h
    rw [collectTags, addElement, if_neg helement, hid]
    dsimp only
    cases fieldOf classNamespace tag id <;> rfl

/-- The walk succeeds if all ids and all types are usable. -/
theorem collectTags_of_usable {fields : OrderedMap Field} {tags : List StartTag}
    (h : ∀ named ∈ namedTags elementId? tags, Usable classNamespace named) :
    ∃ result, collectTags none classNamespace fields tags = .ok result := by
  induction tags generalizing fields with
  | nil => exact ⟨fields, rfl⟩
  | cons tag tags ih =>
    cases hnamed : namedTag? elementId? tag with
    | none =>
      rw [collectTags_of_unnamed hnamed]
      apply ih
      intro named hmem
      apply h
      rwa [namedTags, List.filterMap_cons_none hnamed]
    | some named =>
      rw [namedTags, List.filterMap_cons_some hnamed] at h
      obtain ⟨field, hfield⟩ := fieldOf_of_usable (h named List.mem_cons_self)
      rw [collectTags_of_named hnamed, hfield]
      apply ih
      intro other hmem
      exact h other (List.mem_cons_of_mem _ hmem)

/-- What the walk inserts: for each element with an id its field, in order. -/
theorem collectTags_eq_ok {fields result : OrderedMap Field} {tags : List StartTag}
    (h : collectTags ending classNamespace fields tags = .ok result) :
    ∃ made : List (StartTag × Field),
      namedTags elementId? tags = made.map (fun pair => (pair.2.id, pair.1)) ∧
      (∀ pair ∈ made, fieldOf classNamespace pair.1 pair.2.id = .ok pair.2) ∧
      result = fields.insertAll (made.map fun pair => (pair.2.id, pair.2)) := by
  induction tags generalizing fields with
  | nil =>
    cases ending with
    | some error => cases h
    | none =>
      cases h
      exact ⟨[], rfl, by simp, rfl⟩
  | cons tag tags ih =>
    cases hnamed : namedTag? elementId? tag with
    | none =>
      rw [collectTags_of_unnamed hnamed] at h
      rw [namedTags, List.filterMap_cons_none hnamed]
      exact ih h
    | some named =>
      rw [collectTags_of_named hnamed] at h
      cases hfield : fieldOf classNamespace named.2 named.1 with
      | error error =>
        rw [hfield] at h
        cases h
      | ok field =>
        rw [hfield] at h
        obtain ⟨made, hmade, hfields, hresult⟩ := ih h
        obtain ⟨hid, -, -⟩ := fieldOf_eq_ok hfield
        refine ⟨(named.2, field) :: made, ?_, ?_, ?_⟩
        · rw [namedTags, List.filterMap_cons_some hnamed]
          show named :: namedTags elementId? tags = (field.id, named.2) :: _
          rw [hmade, hid]
        · intro pair hpair
          rcases List.mem_cons.1 hpair with rfl | hpair
          · show fieldOf classNamespace named.2 field.id = .ok field
            rw [hid, hfield]
          · exact hfields pair hpair
        · rw [hresult, List.map_cons, OrderedMap.insertAll_cons, hid]

/-- **The fields of a walk are those of the elements that it came to.** -/
theorem lists_of_collectTags {result : OrderedMap Field} {tags : List StartTag}
    (h : collectTags ending classNamespace .empty tags = .ok result) :
    Lists classNamespace (namedTags elementId? tags) result.values := by
  obtain ⟨made, hnamed, hmade, rfl⟩ := collectTags_eq_ok h
  -- every field stands under its own id
  have hentry : ∀ entry ∈ (OrderedMap.ofList (made.map fun pair => (pair.2.id, pair.2))).toList,
      entry.2.id = entry.1 ∧ ∃ tag, fieldOf classNamespace tag entry.1 = .ok entry.2 := by
    intro entry hentry
    rcases OrderedMap.mem_insertAll hentry with hmem | hnone
    · obtain ⟨pair, hpair, rfl⟩ := List.mem_map.1 hmem
      exact ⟨rfl, pair.1, hmade pair hpair⟩
    · cases hnone
  refine ⟨?_, ?_, ?_⟩
  · have hkeys : (OrderedMap.ofList (made.map fun pair => (pair.2.id, pair.2))).values.map
        Field.id = (OrderedMap.ofList (made.map fun pair => (pair.2.id, pair.2))).keys := by
      unfold OrderedMap.values OrderedMap.keys
      rw [List.map_map]
      apply List.map_congr_left
      intro entry hmem
      exact (hentry entry hmem).1
    show (OrderedMap.ofList (made.map fun pair => (pair.2.id, pair.2))).values.map Field.id = _
    rw [hkeys, OrderedMap.keys_ofList, hnamed, List.map_map, List.map_map]
    rfl
  · intro field hfield
    obtain ⟨entry, hmem, rfl⟩ := List.mem_map.1 hfield
    obtain ⟨hid, tag, hof⟩ := hentry entry hmem
    rw [hid]
    exact (fieldOf_eq_ok hof).2.1
  · intro field hfield
    obtain ⟨⟨key, field⟩, hmem, rfl⟩ := List.mem_map.1 hfield
    obtain ⟨hid, -⟩ := hentry _ hmem
    obtain rfl : field.id = key := hid
    have hget := OrderedMap.get?_of_mem (OrderedMap.nodup_keys_ofList _) hmem
    obtain ⟨before, behind, hsplit, hlast⟩ := OrderedMap.get?_ofList_split hget
    obtain ⟨first, rest, rfl, rfl, hrest⟩ := List.map_eq_append_iff.1 hsplit
    obtain ⟨pair, second, rfl, hpair, rfl⟩ := List.map_eq_cons_iff.1 hrest
    obtain ⟨-, hfieldOf⟩ := Prod.mk.inj hpair
    obtain rfl : pair.2 = field := hfieldOf
    refine ⟨first.map fun pair => (pair.2.id, pair.1), pair.1, second.map fun pair =>
      (pair.2.id, pair.1), ?_, ?_, ?_⟩
    · rw [hnamed, List.map_append, List.map_cons]
    · rw [List.map_map] at hlast ⊢
      exact hlast
    · exact (fieldOf_eq_ok (hmade pair (by simp))).2.2

end Walk

/-! ## Collisions -/

/-- **The search for a collision** finds none if all names differ, else the first one. In the loop,
`passed` are the fields that were passed, and the map has their ids under their names. -/
theorem collision?_cases {passed fields : List Field} (hpassed : (passed.map Field.name).Nodup) :
    collision? (.ofList (passed.map fun field => (field.name, field.id))) fields = none ∧
        ((passed ++ fields).map Field.name).Nodup ∨
      ∃ first second, Collide (passed ++ fields) first second ∧
        collision? (.ofList (passed.map fun field => (field.name, field.id))) fields =
          some (.fieldCollision first.id second.id second.name) := by
  induction fields generalizing passed with
  | nil =>
    rw [List.append_nil]
    exact Or.inl ⟨rfl, hpassed⟩
  | cons field fields ih =>
    have hkeys : ((passed.map fun field => (field.name, field.id)).map Prod.fst) =
        passed.map Field.name := by
      rw [List.map_map]
      rfl
    by_cases hused : field.name ∈ passed.map Field.name
    · obtain ⟨first, hfirst, hname⟩ := List.mem_map.1 hused
      have hget : (OrderedMap.ofList (passed.map fun field => (field.name, field.id))).get?
          field.name = some first.id := by
        apply OrderedMap.get?_insertAll_of_mem
        · rw [hkeys]
          exact hpassed
        · rw [← hname]
          exact List.mem_map.2 ⟨first, hfirst, rfl⟩
      refine Or.inr ⟨first, field, ⟨passed, fields, rfl, hpassed, hfirst, hname⟩, ?_⟩
      rw [collision?, hget]
    · have hget : (OrderedMap.ofList (passed.map fun field => (field.name, field.id))).get?
          field.name = none := by
        rw [OrderedMap.ofList, OrderedMap.get?_insertAll_of_notMem (by rw [hkeys]; exact hused)]
        rfl
      have hnext : (OrderedMap.ofList (passed.map fun field => (field.name, field.id))).insert
          field.name field.id =
          .ofList ((passed ++ [field]).map fun field => (field.name, field.id)) := by
        rw [List.map_append, OrderedMap.ofList, OrderedMap.ofList, OrderedMap.insertAll_append]
        rfl
      have hnodup : ((passed ++ [field]).map Field.name).Nodup := by
        rw [List.map_append, List.nodup_append]
        refine ⟨hpassed, List.nodup_singleton _, ?_⟩
        intro name hname other hother heq
        rw [heq, List.mem_singleton.1 hother] at hname
        exact hused hname
      have hpasses : collision? (.ofList (passed.map fun field => (field.name, field.id)))
          (field :: fields) =
          collision? (.ofList ((passed ++ [field]).map fun field => (field.name, field.id)))
            fields := by
        rw [collision?, hget, hnext]
      rw [hpasses, List.append_cons passed field fields]
      exact ih hnodup

theorem collision?_empty_cases (fields : List Field) :
    collision? .empty fields = none ∧ (fields.map Field.name).Nodup ∨
      ∃ first second, Collide fields first second ∧
        collision? .empty fields = some (.fieldCollision first.id second.id second.name) :=
  @collision?_cases [] fields List.nodup_nil

theorem Collide.not_nodup {fields : List Field} {first second : Field}
    (h : Collide fields first second) :
    ¬ (fields.map Field.name).Nodup := by
  obtain ⟨before, behind, rfl, -, hfirst, hname⟩ := h
  intro hnodup
  rw [List.map_append, List.nodup_append] at hnodup
  exact hnodup.2.2 _ (List.mem_map_of_mem hfirst) _ (by simp) hname

/-! ## Scans -/

/-- **The list of fields is exact.** Let the root of a document declare a class that names a type,
let the rest of the document be read without a fault, and let the ids and the types of all elements
behind the root be usable. Then the scan has made the list of their fields. If no two ids fold to
one name, the list is the outcome, and if two do, the outcome is the error that names the first
collision. In every list that a scan returns, ids and names are all different. -/
theorem scan_fieldList (text : String) :
    (∀ root rest className decl typeName,
        (findRoot (Position.ofOffset? text.toList) (NodeFeed.ofText text.toList)).1 =
          .ok (root, rest) →
        root.attribute? metadataNamespace "Class" = some className →
        Declaration.parse className.value = .ok decl → decl.typeName = some typeName →
        rest.fault? = none →
        (∀ named ∈ namedTags elementId? rest.tags, Usable decl.namespaceName named) →
        ∃ fields, Lists decl.namespaceName (namedTags elementId? rest.tags) fields ∧
          (FoldApart ((namedTags elementId? rest.tags).map Prod.fst) →
            (scan text).1 = .ok (some ⟨decl.namespaceName, typeName, fields⟩)) ∧
          (¬ FoldApart ((namedTags elementId? rest.tags).map Prod.fst) → ∃ first second,
            Collide fields first second ∧
              (scan text).1 = .error (.fieldCollision first.id second.id second.name))) ∧
      ∀ set, (scan text).1 = .ok (some set) →
        (set.fields.map Field.id).Nodup ∧ (set.fields.map Field.name).Nodup := by
  constructor
  · intro root rest className decl typeName hroot hclass hdecl htype hfault husable
    obtain ⟨result, hcollect⟩ := @collectTags_of_usable decl.namespaceName .empty rest.tags husable
    have hlists := lists_of_collectTags hcollect
    have hscan : (scan text).1 = scanClassTags none className.value rest.tags := by
      have hending : endingOf (Position.ofOffset? text.toList) rest = none := by
        rw [endingOf, hfault]
        rfl
      rw [← hending]
      exact scanFeed_of_class _ hroot hclass
    rw [hscan, scanClassTags]
    simp only [hdecl, htype, hcollect]
    refine ⟨result.values, hlists, ?_, ?_⟩
    · intro hapart
      rcases collision?_empty_cases result.values with ⟨hnone, -⟩ | ⟨first, second, hcollide, -⟩
      · rw [hnone]
      · exact absurd (hlists.nodup_names_iff.2 hapart) hcollide.not_nodup
    · intro hfolded
      rcases collision?_empty_cases result.values with ⟨-, hnodup⟩ |
        ⟨first, second, hcollide, hsome⟩
      · exact absurd (hlists.nodup_names_iff.1 hnodup) hfolded
      · rw [hsome]
        exact ⟨first, second, hcollide, rfl⟩
  · intro set h
    obtain ⟨root, rest, className, hroot, hclass, -⟩ :=
      scanFeed_eq_ok (Position.ofOffset? text.toList) h
    have hscan := scanFeed_of_class _ hroot hclass
    obtain ⟨decl, fields, -, -, -, hcollect, hnone, hfields⟩ :=
      scanClassTags_eq_ok (hscan.symm.trans h)
    rw [hfields]
    refine ⟨(lists_of_collectTags hcollect).nodup_ids, ?_⟩
    rcases collision?_empty_cases fields.values with ⟨-, hnodup⟩ | ⟨first, second, -, hsome⟩
    · exact hnodup
    · rw [hnone] at hsome
      cases hsome

/-! ## A list and a collision -/

/-- Two labels and an entry with the given ids. -/
def idsText (first second third : String) : String :=
  "<StackLayout xmlns:x='http://schemas.microsoft.com/winfx/2006/xaml' x:Class='A.B'><Label Id='" ++
    first ++ "'/><Label Id='" ++ second ++ "'/><Entry Id='" ++ third ++ "'/></StackLayout>"

/-- The tag of the root in such a document. -/
def idsRoot : StartTag :=
  ⟨⟨"StackLayout", "StackLayout", ""⟩,
    [⟨⟨"xmlns:x", "x", declarationNamespace⟩, metadataNamespace⟩,
      ⟨⟨"x:Class", "Class", metadataNamespace⟩, "A.B"⟩], false⟩

/-- A tag whose only attribute is an id. -/
def idOnlyTag (name id : String) : StartTag :=
  ⟨⟨name, name, ""⟩, [⟨⟨"Id", "Id", ""⟩, id⟩], true⟩

/-- What stands behind the root's tag in such a document, found at the given offsets. -/
def idsRest (first second third : String) (label entry behind finish : Nat) : NodeFeed :=
  .node ⟨82, 0⟩ (.element (idOnlyTag "Label" first)) <|
  .node ⟨label, 0⟩ (.element (idOnlyTag "Label" second)) <|
  .node ⟨entry, 0⟩ (.element (idOnlyTag "Entry" third)) <|
  .node ⟨behind, 0⟩ (.endElement "StackLayout") <|
  .finished ⟨finish, 0⟩

theorem idsText_feed :
    NodeFeed.ofText (idsText "Same" "Other" "Same").toList =
        .node ⟨0, 0⟩ (.element idsRoot) (idsRest "Same" "Other" "Same" 100 119 137 151) ∧
      NodeFeed.ofText (idsText "NameEntry" "Other" "Name_Entry").toList =
        .node ⟨0, 0⟩ (.element idsRoot) (idsRest "NameEntry" "Other" "Name_Entry" 105 124 148
          162) := by
  refine ⟨?_, ?_⟩
  all_goals
    unfold idsText
    iterate 6 rw [String.toList_append]
    repeat rw [String.toList_ofList]
    rw [NodeFeed.ofText_eq]
    decide +kernel

theorem class_idsRoot :
    idsRoot.attribute? metadataNamespace "Class" = some ⟨⟨"x:Class", "Class", metadataNamespace⟩,
      "A.B"⟩ := by
  decide +kernel

theorem parse_idsClass : Declaration.parse "A.B" = .ok ⟨some "A", some "B", none⟩ := by
  decide +kernel

/-- The elements behind the root are the two labels and the entry, each with its id. -/
theorem namedTags_idsRest (first second third : String) (label entry behind finish : Nat) :
    namedTags elementId? (idsRest first second third label entry behind finish).tags =
      [(first, idOnlyTag "Label" first), (second, idOnlyTag "Label" second),
        (third, idOnlyTag "Entry" third)] := by
  simp [idsRest, NodeFeed.tags, namedTags, namedTag?, elementId?, StartTag.attribute?,
    StartTag.isPropertyElement, idOnlyTag]

/-- The elements behind the root are usable if their ids are: a framework element has a type in any
case. -/
theorem usable_idsRest {first second third : String} (label entry behind finish : Nat)
    (hids : ∀ id ∈ [first, second, third], (fieldName? id).isSome) :
    ∀ named ∈ namedTags elementId? (idsRest first second third label entry behind finish).tags,
      Usable (some "A") named := by
  rw [namedTags_idsRest]
  intro named hnamed
  have hid : named.1 ∈ [first, second, third] ∧ isFramework named.2.name.uri = true := by
    simp only [List.mem_cons, List.not_mem_nil, or_false] at hnamed
    rcases hnamed with rfl | rfl | rfl
    · exact ⟨by simp, rfl⟩
    · exact ⟨by simp, rfl⟩
    · exact ⟨by simp, rfl⟩
  refine ⟨Option.isSome_iff_exists.1 (hids _ hid.1),
    "::kiln_model::forms::" ++ named.2.name.localName, ?_⟩
  rw [typePath, if_pos hid.2]

/-- An id that comes twice has the place of the first and the type of the last element that has it,
and two ids that fold to one name are refused. -/
theorem scan_fieldList_idsText :
    (scan (idsText "Same" "Other" "Same")).1 = .ok (some ⟨some "A", "B",
        [⟨"Same", "same", "::kiln_model::forms::Entry"⟩,
          ⟨"Other", "other", "::kiln_model::forms::Label"⟩]⟩) ∧
      (scan (idsText "NameEntry" "Other" "Name_Entry")).1 =
        .error (.fieldCollision "NameEntry" "Name_Entry" "name_entry") := by
  obtain ⟨hrepeated, hfolded⟩ := idsText_feed
  constructor
  · obtain ⟨fields, hlists, hok, -⟩ := (scan_fieldList (idsText "Same" "Other" "Same")).1
      idsRoot (idsRest "Same" "Other" "Same" 100 119 137 151) _ _ "B"
      (by rw [hrepeated]; rfl) class_idsRoot
      parse_idsClass rfl rfl (usable_idsRest _ _ _ _ (by decide +kernel))
    rw [namedTags_idsRest] at hlists hok
    have hexpected : Lists (some "A") [("Same", idOnlyTag "Label" "Same"),
        ("Other", idOnlyTag "Label" "Other"),
        ("Same", idOnlyTag "Entry" "Same")] [⟨"Same", "same", "::kiln_model::forms::Entry"⟩,
        ⟨"Other", "other", "::kiln_model::forms::Label"⟩] := by
      refine ⟨by decide +kernel, by decide +kernel, ?_⟩
      intro field hfield
      simp only [List.mem_cons, List.not_mem_nil, or_false] at hfield
      rcases hfield with rfl | rfl
      · exact ⟨[_, _], idOnlyTag "Entry" "Same", [], rfl, by decide, rfl⟩
      · exact ⟨[_], idOnlyTag "Label" "Other", [_], rfl, by decide, rfl⟩
    rw [hlists.unique hexpected] at hok
    apply hok
    unfold FoldApart
    decide +kernel
  · obtain ⟨fields, hlists, -, hcollide⟩ :=
      (scan_fieldList (idsText "NameEntry" "Other" "Name_Entry")).1
      idsRoot (idsRest "NameEntry" "Other" "Name_Entry" 105 124 148 162) _ _ "B"
      (by rw [hfolded]; rfl) class_idsRoot
      parse_idsClass rfl rfl (usable_idsRest _ _ _ _ (by decide +kernel))
    rw [namedTags_idsRest] at hlists hcollide
    obtain ⟨first, second, ⟨before, behind, hfields, hnodup, hfirst, hname⟩, herror⟩ := hcollide (by
      intro hapart
      have hsame := hapart "NameEntry" (by decide) "Name_Entry" (by decide) (by decide +kernel)
      exact absurd hsame (by decide))
    have hexpected : Lists (some "A") [("NameEntry", idOnlyTag "Label" "NameEntry"),
        ("Other", idOnlyTag "Label" "Other"), ("Name_Entry", idOnlyTag "Entry" "Name_Entry")]
        [⟨"NameEntry", "name_entry", "::kiln_model::forms::Label"⟩,
         ⟨"Other", "other", "::kiln_model::forms::Label"⟩,
          ⟨"Name_Entry", "name_entry", "::kiln_model::forms::Entry"⟩] := by
      refine ⟨by decide +kernel, by decide +kernel, ?_⟩
      intro field hfield
      simp only [List.mem_cons, List.not_mem_nil, or_false] at hfield
      rcases hfield with rfl | rfl | rfl
      · exact ⟨[], idOnlyTag "Label" "NameEntry", [_, _], rfl, by decide, rfl⟩
      · exact ⟨[_], idOnlyTag "Label" "Other", [_], rfl, by decide, rfl⟩
      · exact ⟨[_, _], idOnlyTag "Entry" "Name_Entry", [], rfl, by decide, rfl⟩
    rw [hlists.unique hexpected] at hfields
    -- only the third name is in use, by the first field
    rcases before with _ | ⟨field, _ | ⟨other, _ | ⟨last, more⟩⟩⟩
    · cases hfirst
    · cases hfields
      rw [List.mem_singleton.1 hfirst] at hname
      exact absurd hname (by decide)
    · cases hfields
      rcases List.mem_cons.1 hfirst with rfl | hfirst
      · exact herror
      · rw [List.mem_singleton.1 hfirst] at hname
        exact absurd hname (by decide)
    · simp at hfields

/-! ## Ids under a prefix that stands for nothing -/

/-- The id of an element by the attribute that is written as `Id`, else by that of markup
metadata. -/
def writtenId? (tag : StartTag) : Option String :=
  ((tag.attributes.find? (·.name.written == "Id")).or (tag.attribute? metadataNamespace "Id")).map
    (·.value)

/-- A label with an id whose prefix stands for the empty namespace. -/
def emptyPrefixIdText : String :=
  "<StackLayout xmlns:x='http://schemas.microsoft.com/winfx/2006/xaml' x:Class='A.B'>" ++
    "<Label xmlns:p='' p:Id='t'/></StackLayout>"

/-- What stands behind the root's tag in `emptyPrefixIdText`. -/
def emptyPrefixIdRest : NodeFeed :=
  .node ⟨82, 0⟩ (.element ⟨⟨"Label", "Label", ""⟩,
    [⟨⟨"xmlns:p", "p", declarationNamespace⟩, ""⟩, ⟨⟨"p:Id", "Id", ""⟩, "t"⟩], true⟩) <|
  .node ⟨110, 0⟩ (.endElement "StackLayout") <|
  .finished ⟨124, 0⟩

theorem emptyPrefixIdText_feed :
    NodeFeed.ofText emptyPrefixIdText.toList =
      .node ⟨0, 0⟩ (.element idsRoot) emptyPrefixIdRest := by
  unfold emptyPrefixIdText
  rw [String.toList_append]
  iterate 2 rw [String.toList_ofList]
  rw [NodeFeed.ofText_eq]
  decide +kernel

/-- The list is not that of the elements with an `Id` as it is written, without a prefix, or one of
markup metadata. -/
theorem not_scan_writtenIds :
    ¬ ∀ (text : String) root rest className decl typeName,
      (findRoot (Position.ofOffset? text.toList) (NodeFeed.ofText text.toList)).1 =
        .ok (root, rest) →
      root.attribute? metadataNamespace "Class" = some className →
      Declaration.parse className.value = .ok decl → decl.typeName = some typeName →
      rest.fault? = none →
      (∀ named ∈ namedTags writtenId? rest.tags, Usable decl.namespaceName named) →
      FoldApart ((namedTags writtenId? rest.tags).map Prod.fst) →
      ∃ fields, Lists decl.namespaceName (namedTags writtenId? rest.tags) fields ∧
        (scan text).1 = .ok (some ⟨decl.namespaceName, typeName, fields⟩) := by
  intro law
  have hnone : namedTags writtenId? emptyPrefixIdRest.tags = [] := by decide +kernel
  have hscan : (scan emptyPrefixIdText).1 =
      .ok (some ⟨some "A", "B", [⟨"t", "t", "::kiln_model::forms::Label"⟩]⟩) := by
    rw [scan_of_feed emptyPrefixIdText_feed]
    rfl
  obtain ⟨fields, hlists, hok⟩ := law emptyPrefixIdText idsRoot emptyPrefixIdRest _ _ "B"
    (by rw [emptyPrefixIdText_feed]; rfl) class_idsRoot parse_idsClass rfl rfl (by simp [hnone])
    (by simp [hnone, FoldApart])
  rw [hscan] at hok
  cases hok
  -- the written ids are none, and yet there is a field
  have hids := hlists.ids
  rw [hnone] at hids
  cases hids

end MarkupForms.Accessors
