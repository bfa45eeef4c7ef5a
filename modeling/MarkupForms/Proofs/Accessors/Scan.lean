import MarkupForms.Accessors.Scan
import MarkupForms.Proofs.Markup.Tree
import MarkupForms.Proofs.OrderedMap

/-!
# Where fields come from

Every field of a document's accessors names an element inside its root: the element's tag spells the
id, and the field has the path to the type that the tag names.
-/

namespace MarkupForms.Accessors

open Markup

/-- The field is the one that a tag asks for. -/
structure Names (classNamespace : Option String) (tag : StartTag) (field : Field) : Prop where
  id : elementId? tag = some field.id
  typePath : Accessors.typePath classNamespace tag.name = .ok field.typePath
  element : tag.isPropertyElement = false

/-- The field of an element has its id, the name that goes with the id, and the path to the
element's type. -/
theorem fieldOf_eq_ok {classNamespace : Option String} {tag : StartTag} {id : String}
    {field : Field} (h : fieldOf classNamespace tag id = .ok field) :
    field.id = id ∧ fieldName? id = some field.name ∧
      Accessors.typePath classNamespace tag.name = .ok field.typePath := by
  unfold fieldOf at h
  cases hname : fieldName? id with
  | none =>
    rw [hname] at h
    cases h
  | some name =>
    cases hpath : Accessors.typePath classNamespace tag.name with
    | error fault =>
      rw [hname, hpath] at h
      cases h
    | ok path =>
      rw [hname, hpath] at h
      cases h
      exact ⟨rfl, rfl, rfl⟩

/-- One more element leaves the fields as they are or puts its own among them. -/
theorem addElement_cases {classNamespace : Option String} {fields more : OrderedMap Field}
    {tag : StartTag} (h : (addElement classNamespace fields tag).1 = .ok more) :
    more = fields ∨ ∃ id field, tag.isPropertyElement = false ∧ elementId? tag = some id ∧
      fieldOf classNamespace tag id = .ok field ∧ more = fields.insert id field := by
  unfold addElement at h
  split at h
  · cases h
    exact Or.inl rfl
  · next helement =>
    cases hid : elementId? tag with
    | none =>
      rw [hid] at h
      cases h
      exact Or.inl rfl
    | some id =>
      cases hfield : fieldOf classNamespace tag id with
      | error error =>
        simp only [hid, hfield] at h
        cases h
      | ok added =>
        simp only [hid, hfield] at h
        cases h
        exact Or.inr ⟨id, added, Bool.eq_false_iff.2 helement, rfl, hfield, rfl⟩

/-- One more element adds its own field or none. -/
theorem addElement_spec {classNamespace : Option String} {fields more : OrderedMap Field}
    {tag : StartTag} (h : (addElement classNamespace fields tag).1 = .ok more) :
    ∀ field ∈ more.values, field ∈ fields.values ∨
      Names classNamespace tag field ∧ fieldName? field.id = some field.name := by
  rcases addElement_cases h with rfl | ⟨id, added, helement, hid, hfield, rfl⟩
  · exact fun _ => Or.inl
  · intro field hmem
    obtain ⟨entry, hentry, rfl⟩ := List.mem_map.1 hmem
    -- an id that occurs again takes the place of the field it had before
    rcases OrderedMap.mem_insert hentry with rfl | hold
    · obtain ⟨rfl, hname, hpath⟩ := fieldOf_eq_ok hfield
      exact Or.inr ⟨⟨hid, hpath, helement⟩, hname⟩
    · exact Or.inl (List.mem_map_of_mem hold)

/-- A scan of a text whose nodes are known. -/
theorem scan_of_feed {text : String} {feed : NodeFeed} (h : NodeFeed.ofText text.toList = feed) :
    scan text = scanFeed (Position.ofOffset? text.toList) feed := by
  subst h
  rfl

section Scanning

/- The position of an offset in the document. -/
variable (position : Nat → Option Position)

theorem collectFields_spec {classNamespace : Option String} {fields result : OrderedMap Field}
    (feed : NodeFeed) (h : (collectFields position classNamespace fields feed).1 = .ok result) :
    ∀ field ∈ result.values, field ∈ fields.values ∨
      (∃ tag ∈ feed.tags, Names classNamespace tag field) ∧
      fieldName? field.id = some field.name := by
  induction feed generalizing fields with
  | fault place fault => cases h
  | finished place => cases h; exact fun _ => Or.inl
  | node place node rest ih =>
    cases node with
    | endElement written => exact ih h
    | text content => exact ih h
    | blank => exact ih h
    | element tag =>
      rw [collectFields] at h
      rcases hadd : addElement classNamespace fields tag with ⟨error | more, notes⟩
      · rw [hadd] at h; cases h
      · rw [hadd] at h
        have hadded := addElement_spec (congrArg Prod.fst hadd)
        intro field hmem
        rcases ih h field hmem with hmore | ⟨⟨later, hlater, hnames⟩, hname⟩
        · rcases hadded field hmore with hold | ⟨hnames, hname⟩
          · exact Or.inl hold
          · exact Or.inr ⟨⟨tag, List.mem_cons_self, hnames⟩, hname⟩
        · exact Or.inr ⟨⟨later, List.mem_cons_of_mem _ hlater, hnames⟩, hname⟩

/-- The root that a scan finds is the document's, and what it goes on with stands behind the root's
tag. -/
theorem findRoot_document (doc : Document) :
    (findRoot position doc.feed).1 =
      .ok (doc.root.tag, doc.root.behindTag (blanksThenEnd doc.finish doc.epilog)) := by
  obtain ⟨prolog, root, epilog, finish⟩ := doc
  induction prolog with
  | nil =>
    show (findRoot position (root.followedBy (blanksThenEnd finish epilog))).1 = _
    rw [root.followedBy_eq]
    rfl
  | cons filler prolog ih =>
    cases filler with
    | text place content => exact ih
    | blank place => exact ih

theorem scanClass_eq_ok {text : String} {rest : NodeFeed} {set : AccessorSet}
    (h : (scanClass position text rest).1 = .ok (some set)) :
    ∃ fields, (collectFields position set.namespaceName .empty rest).1 = .ok fields ∧
      set.fields = fields.values := by
  unfold scanClass at h
  cases hdecl : Declaration.parse text with
  | error fault => rw [hdecl] at h; cases h
  | ok decl =>
    cases hclass : decl.typeName with
    | none => simp only [hdecl, hclass] at h; cases h
    | some className =>
      rcases hcollect : collectFields position decl.namespaceName .empty rest with
        ⟨error | fields, notes⟩
      · simp only [hdecl, hclass, hcollect] at h; cases h
      · cases hcollision : collision? .empty fields.values with
        | some error => simp only [hdecl, hclass, hcollect, hcollision] at h; cases h
        | none =>
          simp only [hdecl, hclass, hcollect, hcollision] at h
          cases h
          exact ⟨fields, congrArg Prod.fst hcollect, rfl⟩

/-- A scan that finds accessors has found a root that declares their class. -/
theorem scanFeed_eq_ok {feed : NodeFeed} {set : AccessorSet}
    (h : (scanFeed position feed).1 = .ok (some set)) :
    ∃ root rest className, (findRoot position feed).1 = .ok (root, rest) ∧
      root.attribute? metadataNamespace "Class" = some className ∧
      (scanClass position className.value rest).1 = .ok (some set) := by
  unfold scanFeed at h
  rcases hfind : findRoot position feed with ⟨error | ⟨root, rest⟩, notes⟩
  · rw [hfind] at h
    cases h
  · rw [hfind] at h
    cases hclass : root.attribute? metadataNamespace "Class" with
    | none =>
      simp only [hclass, Scanned.after] at h
      cases h
    | some className =>
      simp only [hclass, Scanned.after] at h
      exact ⟨root, rest, className, rfl, hclass, h⟩

/-- Every field names an element behind the root's tag, and is called by the name that goes with its
id. -/
theorem names_of_scanClass {text : String} {rest : NodeFeed} {set : AccessorSet}
    (h : (scanClass position text rest).1 = .ok (some set)) :
    ∀ field ∈ set.fields, (∃ tag ∈ rest.tags, Names set.namespaceName tag field) ∧
      fieldName? field.id = some field.name := by
  obtain ⟨fields, hcollect, hfields⟩ := scanClass_eq_ok position h
  intro field hmem
  rw [hfields] at hmem
  rcases collectFields_spec position rest hcollect field hmem with hnone | hnames
  · cases hnone
  · exact hnames

/-- **Every field names an element inside the root.** -/
theorem names_of_scanFeed {doc : Document} {set : AccessorSet}
    (h : (scanFeed position doc.feed).1 = .ok (some set)) :
    ∀ field ∈ set.fields, ∃ element ∈ doc.root.inner,
      Names set.namespaceName element.tag field := by
  obtain ⟨root, rest, className, hfound, -, hclass⟩ := scanFeed_eq_ok position h
  rw [findRoot_document] at hfound
  cases hfound
  intro field hmem
  obtain ⟨⟨tag, htag, hnames⟩, -⟩ := names_of_scanClass position hclass field hmem
  -- the scan does not look where the root ends, but behind it there are no tags
  rw [Element.tags_behindTag, tags_blanksThenEnd, List.append_nil] at htag
  obtain ⟨element, helement, rfl⟩ := List.mem_map.1 htag
  exact ⟨element, helement, hnames⟩

end Scanning

end MarkupForms.Accessors
