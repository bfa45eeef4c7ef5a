import Mathlib.Data.List.Forall2
import MarkupForms.Proofs.Markup.Position
import MarkupForms.Proofs.Markup.Tree

/-!
# Prefixes are scoped lexically

What a prefix stands for is a matter of the tags around its use: of the tag itself and of the start
tags of the open elements, the innermost that declares the prefix counts, and in that tag the first
declaration. Nothing else has a say: neither elements that have ended nor tags that closed
themselves.

`Means` states this rule over attributes as they are written, without scopes. A cursor that has read
any number of nodes without a fault follows it (`scoped_of_read?`): the scopes that it keeps are
those of the open elements, one for each (`Tracks`), and a lookup in such scopes is the rule
(`namespaceOf_cases`). A prefix that stands for nothing is a fault, but behind a byte order mark the
fault may have no position, and then it is not reported (`not_every_undeclared_refused`).
-/

namespace MarkupForms.Markup

/-! ## The rule -/

/-- An attribute called `key` declares the prefix `name`: `xmlns` declares the empty one, `xmlns:p`
declares `p`. -/
inductive Declares : (key name : String) → Prop
  | unprefixed : Declares "xmlns" ""
  | prefixed (name : String) : Declares ("xmlns:" ++ name) name

/-- The attributes bind a prefix: the first of them that declares it has the value `uri`. -/
inductive Binds : List (String × String) → (name uri : String) → Prop
  | first {key name uri : String} {rest : List (String × String)} (h : Declares key name) :
      Binds ((key, uri) :: rest) name uri
  | later {key value name uri : String} {rest : List (String × String)}
      (hother : ¬ Declares key name)
      (h : Binds rest name uri) : Binds ((key, value) :: rest) name uri

/-- None of the attributes declares the prefix. -/
def SilentOn (name : String) (attributes : List (String × String)) : Prop :=
  ∀ entry ∈ attributes, ¬ Declares entry.1 name

/-- The innermost tag that declares a prefix binds it. The tags are given by their attributes,
innermost first. -/
inductive InScope : List (List (String × String)) → (name uri : String) → Prop
  | here {tag : List (String × String)} {outer : List (List (String × String))} {name uri : String}
      (h : Binds tag name uri) : InScope (tag :: outer) name uri
  | outside {tag : List (String × String)} {outer : List (List (String × String))}
      {name uri : String}
      (hsilent : SilentOn name tag) (h : InScope outer name uri) : InScope (tag :: outer) name uri

/-- What a prefix stands for inside the given tags. Two prefixes are fixed, and the empty one may do
without a declaration. -/
inductive Means (tags : List (List (String × String))) : (name uri : String) → Prop
  | xml : Means tags "xml" xmlNamespace
  | xmlns : Means tags "xmlns" declarationNamespace
  | declared {name uri : String} (hxml : name ≠ "xml") (hxmlns : name ≠ "xmlns")
      (h : InScope tags name uri) : Means tags name uri
  | nothing (hsilent : ∀ tag ∈ tags, SilentOn "" tag) : Means tags "" ""

/-- A prefix that stands for nothing. -/
structure Undeclared (tags : List (List (String × String))) (name : String) : Prop where
  nonempty : name ≠ ""
  notXml : name ≠ "xml"
  notXmlns : name ≠ "xmlns"
  silent : ∀ tag ∈ tags, SilentOn name tag

/-- The name of an element: a name without a colon has the empty prefix. -/
inductive NamesElement (tags : List (List (String × String))) : ExpandedName → Prop
  | plain {written uri : String} (hcolon : ':' ∉ written.toList) (h : Means tags "" uri) :
      NamesElement tags ⟨written, written, uri⟩
  | prefixed {name localName uri : String} (hcolon : ':' ∉ name.toList) (h : Means tags name uri) :
      NamesElement tags ⟨name ++ ":" ++ localName, localName, uri⟩

/-- The name of an attribute: one without a colon is in no namespace, unless it is the declaration
`xmlns`. -/
inductive NamesAttribute (tags : List (List (String × String))) : ExpandedName → Prop
  | declaration : NamesAttribute tags ⟨"xmlns", "xmlns", declarationNamespace⟩
  | plain {written : String} (hcolon : ':' ∉ written.toList) (hother : written ≠ "xmlns") :
      NamesAttribute tags ⟨written, written, ""⟩
  | prefixed {name localName uri : String} (hcolon : ':' ∉ name.toList) (h : Means tags name uri) :
      NamesAttribute tags ⟨name ++ ":" ++ localName, localName, uri⟩

/-- The tag uses a prefix: in its own name, or in the key of an attribute. -/
inductive Uses (written : String) (attributes : List (String × String)) (name : String) : Prop
  | name (localName : String) (hcolon : ':' ∉ name.toList) (h : written = name ++ ":" ++ localName)
  | key (localName value : String) (hcolon : ':' ∉ name.toList)
      (h : (name ++ ":" ++ localName, value) ∈ attributes)

/-! ## Names are cut at the first colon -/

theorem cutName_eq_some {written name localName : String}
    (h : cutName written = (some name, localName)) :
    written = name ++ ":" ++ localName ∧ ':' ∉ name.toList := by
  unfold cutName at h
  cases hcut : Text.splitAt? ':' written.toList with
  | none => rw [hcut] at h; cases h
  | some parts =>
    obtain ⟨before, after⟩ := parts
    rw [hcut] at h
    cases h
    obtain ⟨hwritten, hcolon⟩ := Text.splitAt?_eq_some hcut
    refine ⟨?_, by rwa [String.toList_ofList]⟩
    apply String.toList_injective
    simp [hwritten]

/-- What stands before the first colon is determined. -/
theorem eq_of_prefixed {name other localName otherLocal : String} (hname : ':' ∉ name.toList)
    (hother : ':' ∉ other.toList) (h : name ++ ":" ++ localName = other ++ ":" ++ otherLocal) :
    name = other := by
  have hlists : name.toList ++ ':' :: localName.toList = other.toList ++ ':' ::
      otherLocal.toList := by
    simpa using congrArg String.toList h
  have hcut : ∀ before after : List Char, ':' ∉ before →
      (before ++ ':' :: after).takeWhile (· != ':') = before := by
    intro before after hcolon
    have hall : ∀ c ∈ before, (c != ':') = true := by
      intro c hc
      rw [bne_iff_ne]
      rintro rfl
      exact hcolon hc
    rw [List.takeWhile_append_of_pos hall]
    simp
  apply String.toList_injective
  rw [← hcut _ localName.toList hname, hlists, hcut _ _ hother]

theorem cutName_eq_none {written localName : String} (h : cutName written = (none, localName)) :
    localName = written ∧ ':' ∉ written.toList := by
  unfold cutName at h
  cases hcut : Text.splitAt? ':' written.toList with
  | none =>
    rw [hcut] at h
    cases h
    exact ⟨rfl, Text.splitAt?_eq_none_iff.1 hcut⟩
  | some parts => rw [hcut] at h; cases h

/-! ## Declarations -/

theorem declaredPrefix?_eq_some_iff {key name : String} :
    declaredPrefix? key = some name ↔ Declares key name := by
  constructor
  · intro h
    unfold declaredPrefix? at h
    split at h
    · next hcut =>
      obtain ⟨heq, -⟩ := cutName_eq_none hcut
      cases h
      rw [← heq]
      exact .unprefixed
    · next declared hcut =>
      cases h
      rw [(cutName_eq_some hcut).1]
      exact .prefixed name
    · cases h
  · rintro (_ | _)
    · rfl
    · -- the key is cut behind `xmlns`, whatever follows
      have hcut : cutName ("xmlns:" ++ name) = (some "xmlns", name) := by
        simp [cutName, Text.splitAt?]
      rw [declaredPrefix?, hcut]
      rfl

theorem declaredPrefix?_eq_none_iff {key : String} :
    declaredPrefix? key = none ↔ ∀ name, ¬ Declares key name := by
  rw [Option.eq_none_iff_forall_ne_some]
  exact forall_congr' fun name => not_congr declaredPrefix?_eq_some_iff

/-- A scope lists the declarations among attributes, in their order. -/
inductive ListsDeclarations : List (String × String) → Scope → Prop
  | nil : ListsDeclarations [] []
  | declaration {key name uri : String} {rest : List (String × String)} {scope : Scope}
      (h : Declares key name)
      (hrest : ListsDeclarations rest scope) :
      ListsDeclarations ((key, uri) :: rest) ((name, uri) :: scope)
  | other {key value : String} {rest : List (String × String)} {scope : Scope}
      (h : ∀ name, ¬ Declares key name)
      (hrest : ListsDeclarations rest scope) : ListsDeclarations ((key, value) :: rest) scope

theorem listsDeclarations_scopeOf (attributes : List (String × String)) :
    ListsDeclarations attributes (scopeOf attributes) := by
  induction attributes with
  | nil => exact .nil
  | cons first rest ih =>
    obtain ⟨key, value⟩ := first
    cases hkey : declaredPrefix? key with
    | none =>
      have hscope : scopeOf ((key, value) :: rest) = scopeOf rest := by simp [scopeOf, hkey]
      rw [hscope]
      exact .other (declaredPrefix?_eq_none_iff.1 hkey) ih
    | some name =>
      have hscope : scopeOf ((key, value) :: rest) = (name, value) :: scopeOf rest := by
        simp [scopeOf, hkey]
      rw [hscope]
      exact .declaration (declaredPrefix?_eq_some_iff.1 hkey) ih

/-! ## Lookups -/

/-- A lookup in the scope of one tag finds the first declaration. -/
theorem find?_scopeOf (attributes : List (String × String)) (name : String) :
    (∃ uri, (scopeOf attributes).find? (·.1 == name) = some (name, uri) ∧
      Binds attributes name uri) ∨
      (scopeOf attributes).find? (·.1 == name) = none ∧ SilentOn name attributes := by
  induction attributes with
  | nil => exact Or.inr ⟨rfl, fun entry hentry => by cases hentry⟩
  | cons first rest ih =>
    obtain ⟨key, value⟩ := first
    by_cases hfirst : Declares key name
    · have hscope : scopeOf ((key, value) :: rest) = (name, value) :: scopeOf rest := by
        simp [scopeOf, declaredPrefix?_eq_some_iff.2 hfirst]
      refine Or.inl ⟨value, ?_, .first hfirst⟩
      rw [hscope]
      exact List.find?_cons_of_pos (beq_self_eq_true name)
    · have hskip : (scopeOf ((key, value) :: rest)).find? (·.1 == name) =
          (scopeOf rest).find? (·.1 == name) := by
        cases hkey : declaredPrefix? key with
        | none => simp [scopeOf, hkey]
        | some other =>
          have hne : other ≠ name := fun heq => hfirst (heq ▸ declaredPrefix?_eq_some_iff.1 hkey)
          simp [scopeOf, hkey, hne]
      rw [hskip]
      rcases ih with ⟨uri, hfind, hbinds⟩ | ⟨hfind, hsilent⟩
      · exact Or.inl ⟨uri, hfind, .later hfirst hbinds⟩
      · exact Or.inr ⟨hfind, List.forall_mem_cons.2 ⟨hfirst, hsilent⟩⟩

/-- A lookup in the scopes of several tags finds the declaration in the innermost of them. -/
theorem find?_flatten (tags : List (List (String × String))) (name : String) :
    (∃ uri, (tags.map scopeOf).flatten.find? (·.1 == name) = some (name, uri) ∧
      InScope tags name uri) ∨
      (tags.map scopeOf).flatten.find? (·.1 == name) = none ∧ ∀ tag ∈ tags, SilentOn name tag := by
  induction tags with
  | nil => exact Or.inr ⟨rfl, fun tag htag => by cases htag⟩
  | cons tag outer ih =>
    rw [List.map_cons, List.flatten_cons, List.find?_append]
    rcases find?_scopeOf tag name with ⟨uri, hfind, hbinds⟩ | ⟨hfind, hsilent⟩
    · exact Or.inl ⟨uri, by rw [hfind, Option.some_or], .here hbinds⟩
    · rw [hfind, Option.none_or]
      rcases ih with ⟨uri, houter, hscope⟩ | ⟨houter, hothers⟩
      · exact Or.inl ⟨uri, houter, .outside hsilent hscope⟩
      · exact Or.inr ⟨houter, List.forall_mem_cons.2 ⟨hsilent, hothers⟩⟩

/-- **The scopes of tags follow the rule**: a prefix stands for what it means, or it is refused and
stands for nothing. -/
theorem namespaceOf_cases (tags : List (List (String × String))) (name : String) :
    (∃ uri, namespaceOf (tags.map scopeOf) name = .ok uri ∧ Means tags name uri) ∨
      namespaceOf (tags.map scopeOf) name = .error (.undeclaredPrefix name) ∧
      Undeclared tags name := by
  unfold namespaceOf
  by_cases hxml : name = "xml"
  · subst hxml
    exact Or.inl ⟨xmlNamespace, rfl, .xml⟩
  · rw [if_neg hxml]
    by_cases hxmlns : name = "xmlns"
    · subst hxmlns
      exact Or.inl ⟨declarationNamespace, rfl, .xmlns⟩
    · rw [if_neg hxmlns]
      rcases find?_flatten tags name with ⟨uri, hfind, hscope⟩ | ⟨hfind, hsilent⟩
      · exact Or.inl ⟨uri, by rw [hfind], .declared hxml hxmlns hscope⟩
      · rw [hfind]
        by_cases hempty : name = ""
        · subst hempty
          exact Or.inl ⟨"", rfl, .nothing hsilent⟩
        · exact Or.inr ⟨if_neg hempty, hempty, hxml, hxmlns, hsilent⟩

theorem Binds.not_silentOn {attributes : List (String × String)} {name uri : String}
    (h : Binds attributes name uri) : ¬ SilentOn name attributes := by
  induction h with
  | first h => exact fun hsilent => hsilent _ List.mem_cons_self h
  | later _ _ ih => exact fun hsilent => ih (List.forall_mem_cons.1 hsilent).2

theorem InScope.not_silentOn {tags : List (List (String × String))} {name uri : String}
    (h : InScope tags name uri) : ¬ ∀ tag ∈ tags, SilentOn name tag := by
  induction h with
  | here h => exact fun hsilent => h.not_silentOn (hsilent _ List.mem_cons_self)
  | outside _ _ ih => exact fun hsilent => ih (List.forall_mem_cons.1 hsilent).2

/-- What means something is declared, fixed, or empty. -/
theorem Means.not_undeclared {tags : List (List (String × String))} {name uri : String}
    (h : Means tags name uri) : ¬ Undeclared tags name := by
  intro hnone
  cases h with
  | xml => exact hnone.notXml rfl
  | xmlns => exact hnone.notXmlns rfl
  | declared _ _ hscope => exact hscope.not_silentOn hnone.silent
  | nothing _ => exact hnone.nonempty rfl

/-! ## Names -/

section Names

variable {tags : List (List (String × String))} {written : String}
  {attributes : List (String × String)}

theorem elementName_cases (tags : List (List (String × String))) (written : String) :
    (∃ name, elementName (tags.map scopeOf) written = .ok name ∧ name.written = written ∧
        NamesElement tags name) ∨
      ∃ name, elementName (tags.map scopeOf) written = .error (.undeclaredPrefix name) ∧
        Undeclared tags name ∧ ∀ attributes, Uses written attributes name := by
  unfold elementName
  rcases hcut : cutName written with ⟨_ | name, localName⟩
  · obtain ⟨rfl, hcolon⟩ := cutName_eq_none hcut
    dsimp only [Option.getD_none]
    rcases namespaceOf_cases tags "" with ⟨uri, hok, hmeans⟩ | ⟨-, hnone⟩
    · exact Or.inl ⟨⟨localName, localName, uri⟩, by rw [hok]; rfl, rfl, .plain hcolon hmeans⟩
    · exact absurd rfl hnone.nonempty
  · obtain ⟨rfl, hcolon⟩ := cutName_eq_some hcut
    dsimp only [Option.getD_some]
    rcases namespaceOf_cases tags name with ⟨uri, hok, hmeans⟩ | ⟨herror, hnone⟩
    · exact Or.inl ⟨⟨name ++ ":" ++ localName, localName, uri⟩, by rw [hok]; rfl, rfl,
        .prefixed hcolon hmeans⟩
    · exact Or.inr ⟨name, by rw [herror]; rfl, hnone, fun _ => .name localName hcolon rfl⟩

theorem attributeName_cases (tags : List (List (String × String))) (key : String) :
    (∃ name, attributeName (tags.map scopeOf) key = .ok name ∧ name.written = key ∧
        NamesAttribute tags name) ∨
      ∃ name localName, attributeName (tags.map scopeOf) key = .error (.undeclaredPrefix name) ∧
        Undeclared tags name ∧ key = name ++ ":" ++ localName ∧ ':' ∉ name.toList := by
  unfold attributeName
  split
  · next hcut =>
    obtain ⟨heq, -⟩ := cutName_eq_none hcut
    subst heq
    exact Or.inl ⟨_, rfl, rfl, .declaration⟩
  · next localName hother hcut =>
    obtain ⟨rfl, hcolon⟩ := cutName_eq_none hcut
    exact Or.inl ⟨_, rfl, rfl, .plain hcolon hother⟩
  · next name localName hcut =>
    obtain ⟨rfl, hcolon⟩ := cutName_eq_some hcut
    rcases namespaceOf_cases tags name with ⟨uri, hok, hmeans⟩ | ⟨herror, hnone⟩
    · exact Or.inl ⟨⟨name ++ ":" ++ localName, localName, uri⟩, by rw [hok]; rfl, rfl,
        .prefixed hcolon hmeans⟩
    · exact Or.inr ⟨name, localName, by rw [herror]; rfl, hnone, rfl, hcolon⟩

/-- In a name without a colon no prefix is used. -/
theorem ne_of_no_colon {name localName : String} (h : ':' ∉ written.toList) :
    written ≠ name ++ ":" ++ localName := by
  rintro rfl
  apply h
  simp

theorem NamesElement.not_undeclared {name : ExpandedName} (h : NamesElement tags name)
    {used : String} (hused : ':' ∉ used.toList) {localName : String}
    (hwritten : name.written = used ++ ":" ++ localName) :
    ¬ Undeclared tags used := by
  cases h with
  | plain hcolon _ => exact absurd hwritten (ne_of_no_colon hcolon)
  | prefixed hcolon hmeans =>
    rw [eq_of_prefixed hcolon hused hwritten] at hmeans
    exact hmeans.not_undeclared

theorem NamesAttribute.not_undeclared {name : ExpandedName} (h : NamesAttribute tags name)
    {used : String} (hused : ':' ∉ used.toList) {localName : String}
    (hwritten : name.written = used ++ ":" ++ localName) :
    ¬ Undeclared tags used := by
  cases h with
  | declaration => exact absurd hwritten (ne_of_no_colon (by decide))
  | plain hcolon _ => exact absurd hwritten (ne_of_no_colon hcolon)
  | prefixed hcolon hmeans =>
    rw [eq_of_prefixed hcolon hused hwritten] at hmeans
    exact hmeans.not_undeclared

end Names

/-! ## Tags -/

/-- The attributes of a tag as they are written: keys and values. -/
def StartTag.writtenAttributes (tag : StartTag) : List (String × String) :=
  tag.attributes.map fun attr => (attr.name.written, attr.value)

section Tags

variable {tags : List (List (String × String))}

theorem resolveAttributes_cases (tags : List (List (String × String))) (written : String)
    (attributes : List (String × String)) :
    (∃ resolved, resolveAttributes (tags.map scopeOf) attributes = .ok resolved ∧
        (resolved.map fun attr => (attr.name.written, attr.value)) = attributes ∧
        ∀ attr ∈ resolved, NamesAttribute tags attr.name) ∨
      ∃ name, resolveAttributes (tags.map scopeOf) attributes = .error (.undeclaredPrefix name) ∧
        Undeclared tags name ∧ Uses written attributes name := by
  induction attributes with
  | nil => exact Or.inl ⟨[], rfl, rfl, fun attr hattr => by cases hattr⟩
  | cons first rest ih =>
    obtain ⟨key, value⟩ := first
    rw [resolveAttributes]
    rcases attributeName_cases tags key with
      ⟨name, hok, hkey, hnames⟩ | ⟨name, localName, herror, hnone, hkey, hcolon⟩
    · rw [hok]
      dsimp only
      rcases ih with ⟨resolved, hrest, hwritten, hothers⟩ | ⟨other, hrest, hnone, huses⟩
      · refine Or.inl ⟨⟨name, value⟩ :: resolved, by rw [hrest]; rfl, ?_,
          List.forall_mem_cons.2 ⟨hnames, hothers⟩⟩
        rw [List.map_cons, hwritten, hkey]
      · refine Or.inr ⟨other, by rw [hrest]; rfl, hnone, ?_⟩
        cases huses with
        | name localName hcolon h => exact .name localName hcolon h
        | key localName text hcolon h => exact .key localName text hcolon (List.mem_cons_of_mem _ h)
    · rw [herror]
      exact Or.inr ⟨name, rfl, hnone, .key localName value hcolon (hkey ▸ List.mem_cons_self)⟩

/-- What follows from the name of a tag, its attributes, and the attributes of the tags around it:
the names of the tag, all according to the rule, unless it uses a prefix that stands for nothing. -/
theorem resolveTag_cases (tags : List (List (String × String))) (written : String)
    (attributes : List (String × String)) (selfClosing : Bool) :
    (∃ tag, resolveTag (tags.map scopeOf) written attributes selfClosing = .ok tag ∧
        tag.name.written = written ∧ tag.writtenAttributes = attributes ∧
        tag.selfClosing = selfClosing ∧
        NamesElement tags tag.name ∧ ∀ attr ∈ tag.attributes, NamesAttribute tags attr.name) ∨
      ∃ name, resolveTag (tags.map scopeOf) written attributes selfClosing =
        .error (.undeclaredPrefix name) ∧ Undeclared tags name ∧ Uses written attributes name := by
  unfold resolveTag
  rcases elementName_cases tags written with ⟨name, hok, hwritten, hnames⟩ |
    ⟨name, herror, hnone, huses⟩
  · rw [hok]
    dsimp only
    rcases resolveAttributes_cases tags written attributes with
      ⟨resolved, hrest, hkeys, hothers⟩ | ⟨other, hrest, hnone, huses⟩
    · exact Or.inl ⟨⟨name, resolved, selfClosing⟩, by rw [hrest]; rfl, hwritten, hkeys, rfl,
        hnames, hothers⟩
    · exact Or.inr ⟨other, by rw [hrest]; rfl, hnone, huses⟩
  · rw [herror]
    exact Or.inr ⟨name, rfl, hnone, huses attributes⟩

/-- A tag all of whose names follow the rule uses no prefix that stands for nothing. -/
theorem not_undeclared_of_uses {tag : StartTag} (hname : NamesElement tags tag.name)
    (hothers : ∀ attr ∈ tag.attributes, NamesAttribute tags attr.name) {used : String}
    (huses : Uses tag.name.written tag.writtenAttributes used) : ¬ Undeclared tags used := by
  cases huses with
  | name localName hcolon hwritten => exact hname.not_undeclared hcolon hwritten
  | key localName value hcolon hmem =>
    obtain ⟨attr, hattr, heq⟩ := List.mem_map.1 hmem
    exact (hothers attr hattr).not_undeclared hcolon (congrArg Prod.fst heq)

end Tags

/-! ## Runs of a cursor -/

/-- The start tags of the elements that are open behind a node, innermost first, when `opened` are
those before it. -/
def Node.tagsBehind (opened : List StartTag) : Node → List StartTag
  | .element tag => if tag.selfClosing then opened else tag :: opened
  | .endElement _ => opened.tail
  | .text _ | .blank => opened

/-- The start tags of the elements that are open behind nodes. -/
def openTags (opened : List StartTag) (nodes : List Node) : List StartTag :=
  nodes.foldl Node.tagsBehind opened

theorem Node.map_tagsBehind (opened : List StartTag) (node : Node) :
    (node.tagsBehind opened).map (·.name.written) = node.after (opened.map (·.name.written)) := by
  cases node with
  | element tag =>
    cases hcloses : tag.selfClosing with
    | true => simp only [tagsBehind, after, hcloses, if_true]
    | false => simp only [tagsBehind, after, hcloses, Bool.false_eq_true, if_false, List.map_cons]
  | endElement written => exact List.map_tail
  | text content => rfl
  | blank => rfl

mutual

/-- The nodes of an element. -/
def Element.nodes : Element → List Node
  | .selfClosed _ tag _ => [.element tag]
  | .enclosing _ tag _ contents _ =>
    .element tag :: (contents.nodes ++ [.endElement tag.name.written])

/-- The nodes of contents. -/
def Contents.nodes : Contents → List Node
  | .none => []
  | .text _ content rest => .text content :: rest.nodes
  | .blank _ rest => .blank :: rest.nodes
  | .element first rest => first.nodes ++ rest.nodes

end

mutual

/-- Behind an element the same elements are open as before it. -/
theorem Element.openTags_nodes (opened : List StartTag) : (element : Element) →
    openTags opened element.nodes = opened
  | .selfClosed _ tag hcloses => by
    show (Node.element tag).tagsBehind opened = opened
    rw [Node.tagsBehind, if_pos hcloses]
  | .enclosing _ tag hopens contents _ => by
    have hfirst : (Node.element tag).tagsBehind opened = tag :: opened := by
      rw [Node.tagsBehind, hopens]
      rfl
    rw [Element.nodes, openTags, List.foldl_cons, hfirst, List.foldl_append]
    have hinside : openTags (tag :: opened) contents.nodes = tag :: opened :=
      contents.openTags_nodes (tag :: opened)
    rw [openTags] at hinside
    rw [hinside]
    rfl

theorem Contents.openTags_nodes (opened : List StartTag) : (contents : Contents) →
    openTags opened contents.nodes = opened
  | .none => rfl
  | .text _ _ rest => rest.openTags_nodes opened
  | .blank _ rest => rest.openTags_nodes opened
  | .element first rest => by
    have hfirst : openTags opened first.nodes = opened := first.openTags_nodes opened
    have hrest : openTags opened rest.nodes = opened := rest.openTags_nodes opened
    rw [openTags] at hfirst hrest
    rw [Contents.nodes, openTags, List.foldl_append, hfirst, hrest]

end

namespace Cursor

/-- The nodes that the next calls yield and the cursor behind them, if no call fails. Behind the
last node of the document there are no more. -/
def read? : (calls : Nat) → Cursor → Option (List Node × Cursor)
  | 0, c => some ([], c)
  | calls + 1, c =>
    match c.next with
    | (.ok (some node), behind) => (behind.read? calls).map fun (nodes, last) =>
      (node :: nodes, last)
    | (.ok none, behind) => behind.read? calls
    | (.error _, _) => none

/-- The next piece of the document is a tag with this name and these attributes. -/
def MeetsTag (c : Cursor) (written : String) (attributes : List (String × String)) : Prop :=
  ∃ content, tagAttributes content = .ok attributes ∧ String.ofList (tagName content) = written ∧
    ((c.reader.nextContent 0).2.1 = .ok (.startTag content) ∨
      (c.reader.nextContent 0).2.1 = .ok (.emptyTag content))

/-- The cursor keeps one scope for each open element, and these are what the start tags declare. -/
structure Tracks (c : Cursor) (opened : List StartTag) : Prop where
  scopes : c.scopes = opened.map fun tag => scopeOf tag.writtenAttributes
  names : c.openNames = opened.map (·.name.written)

theorem Tracks.ofText (cs : List Char) : (Cursor.ofText cs).Tracks [] where
  scopes := rfl
  names := by
    show (Reader.ofText cs).opened.map String.ofList = []
    -- with or without a byte order mark
    unfold Reader.ofText
    split <;> rfl

section Steps

variable {c behind : Cursor} {opened : List StartTag}

/-- What an opened tag leaves to the cursor: its own scope, and the names according to the rule. -/
theorem openTag_cases (h : c.Tracks opened) (content : List Char) (selfClosing : Bool)
    {attributes : List (String × String)} (hattributes : tagAttributes content = .ok attributes) :
    (openTag c.scopes content selfClosing).2 = scopeOf attributes :: c.scopes ∧
      ((∃ tag, (openTag c.scopes content selfClosing).1 = .ok tag ∧
          tag.name.written = String.ofList (tagName content) ∧ tag.writtenAttributes = attributes ∧
          tag.selfClosing = selfClosing ∧
          NamesElement ((tag :: opened).map StartTag.writtenAttributes) tag.name ∧
          ∀ attr ∈ tag.attributes, NamesAttribute ((tag :: opened).map StartTag.writtenAttributes)
            attr.name) ∨
        ∃ name, (openTag c.scopes content selfClosing).1 = .error (.undeclaredPrefix name) ∧
          Undeclared (attributes :: opened.map StartTag.writtenAttributes) name ∧
          Uses (String.ofList (tagName content)) attributes name) := by
  have hscopes : scopeOf attributes :: c.scopes =
      (attributes :: opened.map StartTag.writtenAttributes).map scopeOf := by
    rw [h.scopes, List.map_cons, List.map_map]
    rfl
  unfold openTag
  rw [hattributes]
  refine ⟨rfl, ?_⟩
  dsimp only
  rw [hscopes]
  rcases resolveTag_cases (attributes :: opened.map StartTag.writtenAttributes)
    (String.ofList (tagName content))
    attributes selfClosing with ⟨tag, hok, hwritten, rfl, hcloses, hnames⟩ | hundeclared
  · exact Or.inl ⟨tag, hok, hwritten, rfl, hcloses, hnames⟩
  · exact Or.inr hundeclared

theorem tagAttributes_of_openTag {scopes : List Scope} {content : List Char} {selfClosing : Bool}
    {tag : StartTag} (h : (openTag scopes content selfClosing).1 = .ok tag) :
    ∃ attributes, tagAttributes content = .ok attributes := by
  unfold openTag at h
  cases hattributes : tagAttributes content with
  | error fault => rw [hattributes] at h; cases h
  | ok attributes => exact ⟨attributes, rfl⟩

/-- What a tag event comes to, if its node can be read. -/
theorem openTag_of_ok (h : c.Tracks opened) {content : List Char} {selfClosing : Bool}
    {tag : StartTag} (htag : (openTag c.scopes content selfClosing).1 = .ok tag) :
    (openTag c.scopes content selfClosing).2 = scopeOf tag.writtenAttributes :: c.scopes ∧
      tag.selfClosing = selfClosing ∧
      NamesElement ((tag :: opened).map StartTag.writtenAttributes) tag.name ∧
      ∀ attr ∈ tag.attributes, NamesAttribute ((tag :: opened).map StartTag.writtenAttributes)
        attr.name := by
  obtain ⟨attributes, hattributes⟩ := tagAttributes_of_openTag htag
  obtain ⟨hinner, ⟨found, hfound, -, rfl, hcloses, hnames⟩ | ⟨name, herror, -⟩⟩ :=
    openTag_cases h content selfClosing hattributes
  · rw [htag] at hfound
    cases hfound
    exact ⟨hinner, hcloses, hnames⟩
  · rw [htag] at herror
    cases herror

theorem textNode_eq_ok {raw : List Char} {found : Option Node} (h : textNode raw = .ok found) :
    found = some .blank ∨ ∃ content, found = some (.text content) := by
  unfold textNode at h
  split at h
  · cases h
  · cases h
    split
    · exact Or.inl rfl
    · exact Or.inr ⟨_, rfl⟩

/-- A tag event comes to the node of its tag, or to a fault. -/
theorem elementNode_eq_ok {outcome : Except NodeFault StartTag} {found : Option Node}
    (h : outcome.map (some ∘ Node.element) = .ok found) :
    ∃ tag, outcome = .ok tag ∧ found = some (.element tag) := by
  cases outcome with
  | error fault => cases h
  | ok tag => cases h; exact ⟨tag, rfl, rfl⟩

/-- Every event but asides and the end comes to a node or to a fault. -/
theorem quiet_of_nodeOf {scopes : List Scope} {event : Event}
    (h : (nodeOf scopes event).1 = .ok none) :
    event = .aside ∨ event = .finished := by
  cases event with
  | startTag content =>
    obtain ⟨tag, -, heq⟩ := elementNode_eq_ok h
    cases heq
  | emptyTag content =>
    obtain ⟨tag, -, heq⟩ := elementNode_eq_ok h
    cases heq
  | endTag name => cases h
  | text raw => rcases textNode_eq_ok h with heq | ⟨content, heq⟩ <;> cases heq
  | characterData body => cases h
  | aside => exact Or.inl rfl
  | finished => exact Or.inr rfl

/-- The scopes behind a node are those of the elements that are open there. -/
theorem scopes_nodeOf (h : c.Tracks opened) {event : Event} {node : Node}
    (hnode : (nodeOf c.scopes event).1 = .ok (some node)) :
    (nodeOf c.scopes event).2 = (node.tagsBehind opened).map fun tag =>
      scopeOf tag.writtenAttributes := by
  cases event with
  | startTag content =>
    obtain ⟨tag, htag, heq⟩ := elementNode_eq_ok hnode
    cases heq
    obtain ⟨hinner, hcloses, -⟩ := openTag_of_ok h htag
    show (openTag c.scopes content false).2 = _
    rw [hinner, h.scopes, Node.tagsBehind, hcloses]
    rfl
  | emptyTag content =>
    obtain ⟨tag, htag, heq⟩ := elementNode_eq_ok hnode
    cases heq
    obtain ⟨hinner, hcloses, -⟩ := openTag_of_ok h htag
    -- its own scope is gone before the next node
    show (openTag c.scopes content true).2.tail = _
    rw [hinner, List.tail_cons, h.scopes, Node.tagsBehind, hcloses, if_pos rfl]
  | endTag name =>
    cases hnode
    show c.scopes.tail = _
    rw [h.scopes]
    exact List.map_tail.symm
  | text raw =>
    rcases textNode_eq_ok hnode with heq | ⟨content, heq⟩ <;> cases heq <;> exact h.scopes
  | characterData body =>
    cases hnode
    exact h.scopes
  | aside => cases hnode
  | finished => cases hnode

/-- **One node**: the scopes move with the open elements. -/
theorem Tracks.node (h : c.Tracks opened) {node : Node}
    (hnext : c.next = (.ok (some node), behind)) :
    behind.Tracks (node.tagsBehind opened) := by
  refine ⟨?_, ?_⟩
  · unfold next at hnext
    split at hnext
    · cases hnext
    · next place event reader hread =>
      rw [Prod.mk.injEq] at hnext
      obtain ⟨hnode, rfl⟩ := hnext
      exact scopes_nodeOf h hnode
  · rw [(next_openNames hnext).2, h.names, Node.map_tagsBehind]

theorem Tracks.declarations (h : c.Tracks opened) :
    List.Forall₂ (fun tag scope => ListsDeclarations tag.writtenAttributes scope) opened
      c.scopes := by
  rw [h.scopes, List.forall₂_map_right_iff, List.forall₂_same]
  intro tag htag
  exact listsDeclarations_scopeOf tag.writtenAttributes

/-- At the end nothing moves. -/
theorem Tracks.finished (h : c.Tracks opened) (hnext : c.next = (.ok none, behind)) :
    behind.Tracks opened := by
  unfold next at hnext
  split at hnext
  · cases hnext
  · next place event reader hread =>
    rw [Prod.mk.injEq] at hnext
    obtain ⟨hnode, rfl⟩ := hnext
    have hmoves : event.Moves c.reader.opened reader.opened := by
      have hmoves := @Reader.nextContent_moves 0 c.reader event (by rw [hread])
      rwa [hread] at hmoves
    rcases quiet_of_nodeOf hnode with rfl | rfl <;>
      exact ⟨h.scopes, (congrArg (List.map String.ofList) hmoves).trans h.names⟩

/-- **A run**: the scopes are those of the open elements, however many nodes were read. -/
theorem Tracks.read? {calls : Nat} {nodes : List Node} (h : c.Tracks opened)
    (hread : c.read? calls = some (nodes, behind)) : behind.Tracks (openTags opened nodes) := by
  induction calls generalizing c opened nodes with
  | zero => cases hread; exact h
  | succ calls ih =>
    rw [Cursor.read?] at hread
    split at hread
    · next node between hnext =>
      obtain ⟨⟨rest, last⟩, hrest, heq⟩ := Option.map_eq_some_iff.1 hread
      cases heq
      have hlast := ih (h.node hnext) hrest
      rwa [openTags, List.foldl_cons]
    · next between hnext => exact ih (h.finished hnext) hread
    · cases hread

/-- An element that is found has names according to the rule. -/
theorem Tracks.element (h : c.Tracks opened) {tag : StartTag}
    (hnext : c.next = (.ok (some (.element tag)), behind)) :
    NamesElement ((tag :: opened).map StartTag.writtenAttributes) tag.name ∧
      ∀ attr ∈ tag.attributes, NamesAttribute ((tag :: opened).map StartTag.writtenAttributes)
        attr.name := by
  unfold next at hnext
  split at hnext
  · cases hnext
  · next place event reader hread =>
    rw [Prod.mk.injEq] at hnext
    obtain ⟨hnode, -⟩ := hnext
    cases event with
    | startTag content =>
      obtain ⟨found, hfound, heq⟩ := elementNode_eq_ok hnode
      cases heq
      exact (openTag_of_ok h hfound).2.2
    | emptyTag content =>
      obtain ⟨found, hfound, heq⟩ := elementNode_eq_ok hnode
      cases heq
      exact (openTag_of_ok h hfound).2.2
    | endTag name => cases hnode
    | text raw => rcases textNode_eq_ok hnode with heq | ⟨content, heq⟩ <;> cases heq
    | characterData body => cases hnode
    | aside => cases hnode
    | finished => cases hnode

/-- The fault of a tag is that of its node. -/
theorem next_of_openTag_error {content : List Char} {fault : NodeFault}
    (hevent : (c.reader.nextContent 0).2.1 = .ok (.startTag content) ∧
      (openTag c.scopes content false).1 = .error fault ∨ (c.reader.nextContent 0).2.1 =
        .ok (.emptyTag content) ∧ (openTag c.scopes content true).1 = .error fault) :
    c.next.1 = .error fault := by
  rcases hread : c.reader.nextContent 0 with ⟨place, outcome, reader⟩
  rw [hread] at hevent
  unfold next
  rw [hread]
  rcases hevent with ⟨rfl, herror⟩ | ⟨rfl, herror⟩
  · show (openTag c.scopes content false).1.map _ = _
    rw [herror]
    rfl
  · show (openTag c.scopes content true).1.map _ = _
    rw [herror]
    rfl

/-- A tag that uses a prefix without a meaning is refused for the first such prefix. -/
theorem Tracks.undeclared (h : c.Tracks opened) {written name : String}
    {attributes : List (String × String)} (hmeets : c.MeetsTag written attributes)
    (huses : Uses written attributes name)
    (hnone : Undeclared (attributes :: opened.map StartTag.writtenAttributes) name) :
    ∃ first, c.next.1 = .error (.undeclaredPrefix first) ∧ Uses written attributes first ∧
      Undeclared (attributes :: opened.map StartTag.writtenAttributes) first := by
  obtain ⟨content, hattributes, rfl, hevent⟩ := hmeets
  -- the tag cannot be opened: all its names would follow the rule
  have hrefused : ∀ selfClosing, ∃ first, (openTag c.scopes content selfClosing).1 =
      .error (.undeclaredPrefix first) ∧ Uses (String.ofList (tagName content)) attributes first ∧
      Undeclared (attributes :: opened.map StartTag.writtenAttributes) first := by
    intro selfClosing
    obtain ⟨-, ⟨tag, -, hwritten, rfl, -, hname, hothers⟩ | ⟨first, herror, hfirst, husesFirst⟩⟩ :=
      openTag_cases h content selfClosing hattributes
    · rw [← hwritten] at huses
      exact absurd hnone (not_undeclared_of_uses hname hothers huses)
    · exact ⟨first, herror, husesFirst, hfirst⟩
  rcases hevent with hstart | hempty
  · obtain ⟨first, herror, hfirst⟩ := hrefused false
    exact ⟨first, next_of_openTag_error (Or.inl ⟨hstart, herror⟩), hfirst⟩
  · obtain ⟨first, herror, hfirst⟩ := hrefused true
    exact ⟨first, next_of_openTag_error (Or.inr ⟨hempty, herror⟩), hfirst⟩

end Steps

/-- Reading keeps the reader in the text. -/
theorem standsIn_read? {text : List Char} {calls : Nat} {nodes : List Node} {c behind : Cursor}
    (h : c.reader.StandsIn text) (hread : c.read? calls = some (nodes, behind)) :
    behind.reader.StandsIn text := by
  induction calls generalizing c nodes with
  | zero => cases hread; exact h
  | succ calls ih =>
    have hstands := (passes h).stands
    rw [Cursor.read?] at hread
    split at hread
    · next node between hnext =>
      obtain ⟨⟨rest, last⟩, hrest, heq⟩ := Option.map_eq_some_iff.1 hread
      cases heq
      rw [hnext] at hstands
      exact ih hstands hrest
    · next between hnext =>
      rw [hnext] at hstands
      exact ih hstands hread
    · cases hread

/-- Namespaces at a cursor in a text are a matter of the elements around it, `opened` being their
start tags. -/
structure Scoped (source : List Char) (c : Cursor) (opened : List StartTag) : Prop where
  /-- There is one scope for each open element and no other. -/
  tracks : c.Tracks opened
  /-- The scopes list what the start tags declare. -/
  declarations : List.Forall₂ (fun tag scope => ListsDeclarations tag.writtenAttributes scope)
    opened c.scopes
  /-- The names of the next element follow the rule for its own tag and those of the open
  elements. -/
  element : ∀ {tag : StartTag} {behind : Cursor}, c.next = (.ok (some (.element tag)), behind) →
    NamesElement ((tag :: opened).map StartTag.writtenAttributes) tag.name ∧
      ∀ attr ∈ tag.attributes, NamesAttribute ((tag :: opened).map StartTag.writtenAttributes)
        attr.name
  /-- A next tag that uses a prefix without a meaning is a fault, which names such a prefix and is
  reported where the tag was found. Only behind a byte order mark there may be no position to
  report, and the program breaks off. -/
  undeclared : ∀ {written name : String} {attributes : List (String × String)},
    c.MeetsTag written attributes →
    Uses written attributes name →
    Undeclared (attributes :: opened.map StartTag.writtenAttributes) name →
    ∃ first, Uses written attributes first ∧
      Undeclared (attributes :: opened.map StartTag.writtenAttributes) first ∧
      ((∃ p, c.next.2.position? source = some p ∧
          (c.reply source).1 = .refused (.undeclaredPrefix first) p) ∨
        c.next.2.position? source = none ∧ (c.reply source).1 = .aborted ∧
          source.head? = some '\ufeff')
  /-- Behind a whole element nothing that was declared in it is left. -/
  ended : ∀ {calls : Nat} {element : Element} {behind : Cursor}, c.read? calls =
    some (element.nodes, behind) → behind.Tracks opened ∧ behind.scopes = c.scopes

/-- **Prefixes are scoped lexically**: wherever reading without a fault has got to in any document,
namespaces are a matter of the start tags of the elements that are open there. -/
theorem scoped_of_read? (cs : List Char) {calls : Nat} {nodes : List Node} {c : Cursor}
    (hread : (Cursor.ofText cs).read? calls = some (nodes, c)) :
    c.Scoped cs (openTags [] nodes) := by
  have htracks : c.Tracks (openTags [] nodes) := (Tracks.ofText cs).read? hread
  refine ⟨htracks, htracks.declarations, htracks.element, ?_, ?_⟩
  · intro written name attributes hmeets huses hnone
    obtain ⟨first, herror, hfirst⟩ := htracks.undeclared hmeets huses hnone
    exact ⟨first, hfirst.1, hfirst.2,
      reply_of_error (standsIn_read? (Reader.standsIn_ofText cs) hread) herror⟩
  · intro calls element behind hended
    have hbehind := htracks.read? hended
    rw [element.openTags_nodes] at hbehind
    exact ⟨hbehind, hbehind.scopes.trans htracks.scopes.symm⟩

end Cursor

/-- A prefix that an inner tag declares anew. Behind that tag it counts as before. -/
def shadowedText : String :=
  "<a xmlns='urn:a' xmlns:p='urn:one'><p:b xmlns:p='urn:two' p:c='1'/><p:d/></a>"

/-- The start tag of the root of `shadowedText`. -/
def shadowedRoot : StartTag where
  name := ⟨"a", "a", "urn:a"⟩
  attributes :=
    [⟨⟨"xmlns", "xmlns", declarationNamespace⟩, "urn:a"⟩,
     ⟨⟨"xmlns:p", "p", declarationNamespace⟩, "urn:one"⟩]
  selfClosing := false

/-- The tag in `shadowedText` that declares the prefix anew. -/
def shadowedInner : StartTag where
  name := ⟨"p:b", "b", "urn:two"⟩
  attributes := [⟨⟨"xmlns:p", "p", declarationNamespace⟩, "urn:two"⟩,
    ⟨⟨"p:c", "c", "urn:two"⟩, "1"⟩]
  selfClosing := true

/-- Behind the inner tag of `shadowedText` only its root counts. -/
theorem scoped_shadowedText : ∃ c : Cursor,
    (Cursor.ofText shadowedText.toList).read? 2 =
      some ([.element shadowedRoot, .element shadowedInner], c) ∧
      c.Scoped shadowedText.toList [shadowedRoot] ∧
      c.scopes = [[("", "urn:a"), ("p", "urn:one")]] := by
  have hnodes : ((Cursor.ofText shadowedText.toList).read? 2).map Prod.fst =
      some [.element shadowedRoot, .element shadowedInner] := by decide +kernel
  obtain ⟨⟨nodes, c⟩, hread, rfl⟩ := Option.map_eq_some_iff.1 hnodes
  have hscoped : c.Scoped shadowedText.toList [shadowedRoot] :=
    Cursor.scoped_of_read? shadowedText.toList hread
  refine ⟨c, hread, hscoped, ?_⟩
  rw [hscoped.tracks.scopes]
  decide +kernel

/-- A document behind a byte order mark with a character of two bytes and a tag whose prefix stands
for nothing. -/
def markedPrefix : List Char := "\ufeff<a t='é'><u:x/></a>".toList

/-- The start tag of the root of `markedPrefix`. -/
def markedRoot : StartTag where
  name := ⟨"a", "a", ""⟩
  attributes := [⟨⟨"t", "t", ""⟩, "é"⟩]
  selfClosing := false

/-- Not every prefix without a meaning is reported: in `markedPrefix` it makes the program break
off, for the place of the tag, counted without the mark, is inside the character. -/
theorem not_every_undeclared_refused :
    ¬ ∀ (source : List Char) (calls : Nat) (nodes : List Node) (c : Cursor) (written name : String)
      (attributes : List (String × String)), (Cursor.ofText source).read? calls = some (nodes, c) →
      c.MeetsTag written attributes → Uses written attributes name →
      Undeclared (attributes :: (openTags [] nodes).map StartTag.writtenAttributes) name →
      ∃ first p, (c.reply source).1 = .refused (.undeclaredPrefix first) p := by
  intro law
  have hnodes : ((Cursor.ofText markedPrefix).read? 1).map Prod.fst =
      some [.element markedRoot] := by
    decide +kernel
  obtain ⟨⟨nodes, c⟩, hread, rfl⟩ := Option.map_eq_some_iff.1 hnodes
  have hsecond : ((Cursor.ofText markedPrefix).read? 1).map
      (fun reached => ((reached.2.reader.nextContent 0).2.1.toOption,
        (reached.2.reply markedPrefix).1)) =
      some (some (.emptyTag "u:x".toList), .aborted) := by decide +kernel
  rw [hread, Option.map_some, Option.some.injEq, Prod.mk.injEq] at hsecond
  obtain ⟨htag, haborted⟩ := hsecond
  have hmeets : c.MeetsTag "u:x" [] := by
    refine ⟨"u:x".toList, by decide +kernel, by decide +kernel, Or.inr ?_⟩
    cases hevent : (c.reader.nextContent 0).2.1 with
    | error fault => rw [hevent] at htag; cases htag
    | ok event => rw [hevent] at htag; cases htag; rfl
  have hsilent : ∀ tag ∈ [] :: (openTags [] [.element markedRoot]).map StartTag.writtenAttributes,
      SilentOn "u" tag := by
    have hkeys : ∀ tag ∈ [] :: (openTags [] [.element markedRoot]).map StartTag.writtenAttributes,
        ∀ entry ∈ tag, declaredPrefix? entry.1 ≠ some "u" := by decide +kernel
    exact fun tag htag entry hentry hdeclares =>
      hkeys tag htag entry hentry (declaredPrefix?_eq_some_iff.2 hdeclares)
  obtain ⟨first, p, hrefused⟩ := law markedPrefix 1 _ c "u:x" "u" [] hread hmeets
    (.name "x" (by decide) rfl) ⟨by decide, by decide, by decide, hsilent⟩
  rw [haborted] at hrefused
  cases hrefused

end MarkupForms.Markup
