import MarkupForms.Proofs.Markup.Scoping

/-!
# Documents that differ in their prefixes

A prefix is a spelling: what counts is the namespace that it stands for. Two feeds are alike if they
hold the same nodes but for the names as written, wherever the nodes were found. If prefixes are
renamed consistently, the attributes that declare them get other local names, too, so those may be
any.

A feed that ends with a fault is alike to any that ends with a fault behind the same nodes.
-/

namespace MarkupForms.Markup

/-- Two names stand for the same, however they are written. -/
structure ExpandedName.Alike (a b : ExpandedName) : Prop where
  localName : a.localName = b.localName
  uri : a.uri = b.uri

/-- Two attributes give the same value to names that are alike, or both declare a prefix. -/
inductive Attribute.Alike : Attribute → Attribute → Prop where
  | same {a b : Attribute} (name : a.name.Alike b.name) (value : a.value = b.value) : Alike a b
  | declarations {a b : Attribute} (first : a.name.uri = declarationNamespace)
      (second : b.name.uri = declarationNamespace) : Alike a b

/-- Two tags are alike but for the spelling of their names. -/
structure StartTag.Alike (a b : StartTag) : Prop where
  name : a.name.Alike b.name
  attributes : List.Forall₂ Attribute.Alike a.attributes b.attributes
  selfClosing : a.selfClosing = b.selfClosing

/-- Two nodes are alike; an end tag has nothing but its spelling. -/
inductive Node.Alike : Node → Node → Prop where
  | element {a b : StartTag} (h : a.Alike b) : Alike (.element a) (.element b)
  | endElement (a b : String) : Alike (.endElement a) (.endElement b)
  | text (content : String) : Alike (.text content) (.text content)
  | blank : Alike .blank .blank

/-- Two feeds are alike, node by node, and end in the same way. -/
inductive NodeFeed.Alike : NodeFeed → NodeFeed → Prop where
  | node {a b : Node} {f g : NodeFeed} (placeA placeB : Place) (first : a.Alike b)
      (rest : Alike f g) :
      Alike (.node placeA a f) (.node placeB b g)
  | fault (placeA placeB : Place) (a b : NodeFault) : Alike (.fault placeA a) (.fault placeB b)
  | finished (placeA placeB : Place) : Alike (.finished placeA) (.finished placeB)

/-! ## Reflexivity -/

theorem ExpandedName.Alike.refl (a : ExpandedName) : a.Alike a := ⟨rfl, rfl⟩

theorem Attribute.Alike.refl (a : Attribute) : a.Alike a := .same (.refl a.name) rfl

theorem Attribute.forall₂_alike_refl (attributes : List Attribute) :
    List.Forall₂ Attribute.Alike attributes attributes :=
  List.forall₂_same.2 fun a _ => .refl a

theorem StartTag.Alike.refl (a : StartTag) : a.Alike a :=
  ⟨.refl a.name, Attribute.forall₂_alike_refl a.attributes, rfl⟩

theorem Node.Alike.refl (a : Node) : a.Alike a := by
  cases a with
  | element tag => exact .element (.refl tag)
  | endElement written => exact .endElement written written
  | text content => exact .text content
  | blank => exact .blank

theorem NodeFeed.Alike.refl (f : NodeFeed) : f.Alike f := by
  induction f with
  | node place node rest ih => exact .node place place (.refl node) ih
  | fault place fault => exact .fault place place fault fault
  | finished place => exact .finished place place

/-! ## What spelling cannot change -/

namespace StartTag

variable {a b : StartTag}

theorem Alike.isPropertyElement (h : a.Alike b) : a.isPropertyElement = b.isPropertyElement := by
  show a.name.localName.toList.contains '.' = b.name.localName.toList.contains '.'
  rw [h.name.localName]

/-- An attribute is looked for by namespace and local name, so its value is found under any
prefix. -/
theorem Alike.attribute? (h : a.Alike b) (uri localName : String)
    (huri : uri ≠ declarationNamespace) :
    (a.attribute? uri localName).map (·.value) = (b.attribute? uri localName).map (·.value) := by
  have hfind : ∀ {as bs : List Attribute}, List.Forall₂ Attribute.Alike as bs →
      (as.find? fun attr => attr.name.uri == uri && attr.name.localName == localName).map
        (·.value) =
        (bs.find? fun attr => attr.name.uri == uri && attr.name.localName == localName).map
          (·.value) := by
    intro as bs hall
    induction hall with
    | nil => rfl
    | @cons x y xs ys hxy _ ih =>
      rw [List.find?_cons, List.find?_cons]
      cases hxy with
      | same hname hvalue =>
        rw [hname.uri, hname.localName]
        split
        · exact congrArg some hvalue
        · exact ih
      | declarations hx hy =>
        -- neither declaration is what is looked for
        have hother : (declarationNamespace == uri) = false := beq_eq_false_iff_ne.2 huri.symm
        rw [hx, hy, hother, Bool.false_and, Bool.false_and]
        exact ih
  exact hfind h.attributes

end StartTag

theorem NodeFeed.Alike.tags {f g : NodeFeed} (h : f.Alike g) :
    List.Forall₂ StartTag.Alike f.tags g.tags := by
  induction h with
  | node placeA placeB first _ ih =>
    cases first with
    | element htag => exact .cons htag ih
    | endElement _ _ => exact ih
    | text _ => exact ih
    | blank => exact ih
  | fault _ _ _ _ => exact .nil
  | finished _ _ => exact .nil

/-! ## Any prefix will do -/

theorem cutName_prefixed {before localName : String} (hcolon : ':' ∉ before.toList) :
    cutName (before ++ ":" ++ localName) = (some before, localName) := by
  rcases hcut : cutName (before ++ ":" ++ localName) with ⟨_ | other, otherLocal⟩
  · obtain ⟨-, hnone⟩ := cutName_eq_none hcut
    exact absurd rfl (ne_of_no_colon hnone)
  · obtain ⟨hwritten, hother⟩ := cutName_eq_some hcut
    have hbefore : before = other := eq_of_prefixed hcolon hother hwritten
    subst hbefore
    have hlocal : localName = otherLocal := by
      apply String.toList_injective
      simpa using congrArg String.toList hwritten
    rw [hlocal]

/-- An attribute has the namespace that its prefix stands for and the name behind the colon,
whatever the prefix is. -/
theorem attributeName_prefixed {scopes : List Scope} {before localName uri : String}
    (hcolon : ':' ∉ before.toList) (h : namespaceOf scopes before = .ok uri) :
    attributeName scopes (before ++ ":" ++ localName) = .ok ⟨before ++ ":" ++ localName, localName,
      uri⟩ := by
  unfold attributeName
  rw [cutName_prefixed hcolon]
  show (namespaceOf scopes before).map _ = _
  rw [h]
  rfl

end MarkupForms.Markup
