import MarkupForms.Proofs.Hydration.Evaluation
import MarkupForms.Proofs.Markup.Spelling

/-!
# Two passes side by side

The resolver is the only part of a pass that knows the catalogue, and resolving tags is the only
thing that is done with it. So two passes that agree on everything else stay in step for as long as
their resolvers give the same answers. `Comparison` says what two resolvers owe each other, and
`Comparison.assemble` carries it through a whole run: over two feeds that are alike, into graphs
that are equal, down to a root object or to errors of the same kind.

Where the nodes of the two feeds stand matters to positions only. If they may stand at different
places (`Comparison.Apart`), a position may be missing in one of the documents alone, and then one
pass breaks off where the other goes on.
-/

namespace MarkupForms.Hydration

open Markup

/-! ## Kinds of errors -/

/-- What an error is about, without names, texts and positions. -/
inductive ErrorKind where
  | resolution
  | malformed
  | structural
  | propertyNotFound
  | notBindable
  | notFound
  | noPlainProperty
  | valueMismatch
  | aborted
  deriving Repr, DecidableEq

/-- The kind of an error. -/
def MarkupError.kind : MarkupError → ErrorKind
  | .resolution _ _ _ => .resolution
  | .declaration _ _ | .expression _ _ => .malformed
  | .structural _ _ => .structural
  | .propertyNotFound _ _ => .propertyNotFound
  | .notBindable _ _ => .notBindable
  | .notFound _ => .notFound
  | .plain (.noPlainProperty _ _) => .noPlainProperty
  | .plain (.valueMismatch _ _ _) => .valueMismatch
  | .aborted => .aborted

namespace MarkupError

@[simp] theorem kind_at_some (position : Position) (error : MarkupError) :
    (error.at (some position)).kind = error.kind := by
  cases error <;> rfl

theorem kind_at_congr (position : Option Position) {error other : MarkupError}
    (h : other.kind = error.kind) :
    (other.at position).kind = (error.at position).kind := by
  cases position with
  | none => rfl
  | some position => rwa [kind_at_some, kind_at_some]

end MarkupError

/-! ## Another resolver -/

/-- The pass with another resolver. -/
def Pass.withResolver (p : Pass) (s : Resolver) : Pass :=
  { p with resolver := s }

/-- The outcome with another resolver in its pass. -/
def Outcome.withResolver {α : Type} (outcome : Outcome α) (s : Resolver) : Outcome α :=
  (outcome.1, outcome.2.withResolver s)

namespace Pass

section WithResolver

variable (p : Pass) (s : Resolver)

@[simp] theorem graph_withResolver : (p.withResolver s).graph = p.graph := rfl

@[simp] theorem resources_withResolver : (p.withResolver s).resources = p.resources := rfl

@[simp] theorem keys_withResolver : (p.withResolver s).keys = p.keys := rfl

@[simp] theorem resolver_withResolver : (p.withResolver s).resolver = s := rfl

theorem withResolver_self : p.withResolver p.resolver = p := rfl

/-- What does not look at the resolver does not change it either. -/
theorem resolver_of_withResolver {α : Type} {p : Pass} (operation : Pass → Outcome α)
    (h : ∀ s, operation (p.withResolver s) = (operation p).withResolver s) :
    (operation p).2.resolver = p.resolver := by
  have hsame := h p.resolver
  rw [withResolver_self] at hsame
  rw [hsame]
  rfl

theorem assignResources_withResolver (type : TypeInfo) (raw : RawValue) :
    (p.withResolver s).assignResources type raw = (p.assignResources type raw).map
      (·.withResolver s) := by
  cases raw with
  | text content => rfl
  | object container =>
    by_cases hkeyed : (p.graph.component? container).map (·.type.containerKind) = some .keyed
    · simp only [assignResources, shareEntries, graph_withResolver, hkeyed, if_true]
      cases (p.graph.component? container).bind (·.entries) <;> rfl
    · simp only [assignResources, graph_withResolver, hkeyed, if_false]
      rfl

theorem assignBinding_withResolver (target : ObjectId) (type : TypeInfo) (name text : String) :
    (p.withResolver s).assignBinding target type name text =
      (p.assignBinding target type name text).map (·.withResolver s) := by
  unfold assignBinding
  rw [graph_withResolver, resources_withResolver]
  cases type.findManaged name with
  | none => rfl
  | some property =>
    dsimp only
    cases readBinding p.resources text with
    | error error => rfl
    | ok binding =>
      dsimp only
      cases p.graph.component? target with
      | none => rfl
      | some c =>
        dsimp only
        cases c.store <;> rfl

theorem assignManaged_withResolver (target : ObjectId) (type : TypeInfo)
    (property : ManagedProperty) (name : String) (value : Value) :
    (p.withResolver s).assignManaged target type property name value =
      (p.assignManaged target type property name value).map (·.withResolver s) := by
  unfold assignManaged
  rw [graph_withResolver]
  cases p.graph.component? target with
  | none => rfl
  | some c =>
    dsimp only
    cases c.store <;> rfl

theorem assignPlain_withResolver (target : ObjectId) (name : String) (value : Value) :
    (p.withResolver s).assignPlain target name value = (p.assignPlain target name value).map
      (·.withResolver s) := by
  unfold assignPlain
  rw [graph_withResolver]
  cases p.graph.component? target with
  | none => rfl
  | some c =>
    dsimp only
    cases c.toObjectState.setPlain name value <;> rfl

theorem assignValue_withResolver (target : ObjectId) (type : TypeInfo) (name : String)
    (raw : RawValue) :
    (p.withResolver s).assignValue target type name raw =
      (p.assignValue target type name raw).map (·.withResolver s) := by
  have hcoerce : ∀ kind, (p.withResolver s).coerceFor kind name raw = p.coerceFor kind name raw :=
    fun _ => rfl
  simp only [assignValue, hcoerce]
  cases type.findManaged name with
  | some property =>
    dsimp only
    cases p.coerceFor property.kind name raw with
    | error error => rfl
    | ok value => exact p.assignManaged_withResolver s target type property name value
  | none =>
    cases type.findPlain name with
    | none => rfl
    | some kind =>
      dsimp only
      cases p.coerceFor kind name raw with
      | error error => rfl
      | ok value => exact p.assignPlain_withResolver s target name value

/-- An assignment does not look at the resolver. -/
theorem assign_withResolver (target : ObjectId) (type : TypeInfo) (name : String) (raw : RawValue) :
    (p.withResolver s).assign target type name raw = (p.assign target type name raw).map
      (·.withResolver s) := by
  unfold assign
  by_cases hresources : name = "Resources"
  · rw [if_pos hresources, if_pos hresources]
    exact p.assignResources_withResolver s type raw
  · rw [if_neg hresources, if_neg hresources]
    cases raw with
    | object value => exact p.assignValue_withResolver s target type name _
    | text content =>
      dsimp only
      by_cases hexpression : isExpression content = true
      · rw [if_pos hexpression, if_pos hexpression]
        exact p.assignBinding_withResolver s target type name content
      · rw [if_neg hexpression, if_neg hexpression]
        exact p.assignValue_withResolver s target type name _

/-- Nor does it change the resolver. -/
theorem resolver_of_assign {p next : Pass} {target : ObjectId} {type : TypeInfo} {name : String}
    {raw : RawValue} (h : p.assign target type name raw = .ok next) :
    next.resolver = p.resolver := by
  have hsame := p.assign_withResolver p.resolver target type name raw
  rw [withResolver_self, h] at hsame
  have hnext : next = next.withResolver p.resolver := Except.ok.inj hsame
  rw [hnext]
  rfl

theorem roleOf_alike {a b : ExpandedName} (h : a.Alike b) : roleOf a = roleOf b := by
  unfold roleOf
  rw [h.uri, h.localName]

/-- A declaration of a prefix is for the reader only. -/
theorem roleOf_declaration {name : ExpandedName} (h : name.uri = declarationNamespace) :
    roleOf name = .ignored := by
  unfold roleOf
  rw [h]
  rfl

theorem applyAttribute_withResolver (object : ObjectId) (type : TypeInfo) {a b : Markup.Attribute}
    (hab : a.Alike b) :
    (p.withResolver s).applyAttribute object type b = (p.applyAttribute object type a).map
      (·.withResolver s) := by
  unfold applyAttribute
  cases hab with
  | same hname hvalue =>
    rw [roleOf_alike hname, hvalue]
    cases roleOf b.name with
    | property name => exact p.assign_withResolver s object type name _
    | key => rfl
    | ignored => rfl
  | declarations ha hb =>
    rw [roleOf_declaration ha, roleOf_declaration hb]
    rfl

theorem applyAttributes_withResolver (object : ObjectId) (type : TypeInfo)
    {as bs : List Markup.Attribute} (hall : List.Forall₂ Markup.Attribute.Alike as bs) :
    (p.withResolver s).applyAttributes object type bs =
      (p.applyAttributes object type as).withResolver s := by
  induction hall generalizing p with
  | nil => rfl
  | @cons a b as bs hab _ ih =>
    rw [applyAttributes, applyAttributes, p.applyAttribute_withResolver s object type hab]
    cases p.applyAttribute object type a with
    | error error => rfl
    | ok next => exact ih next

theorem insertChild_withResolver (target : ObjectId) (type : TypeInfo) (child : ObjectId) :
    (p.withResolver s).insertChild target type child =
      (p.insertChild target type child).withResolver s := by
  unfold insertChild
  cases type.containerKind with
  | none => rfl
  | items =>
    unfold appendItem
    rw [graph_withResolver]
    cases p.graph.component? target with
    | none => rfl
    | some c =>
      dsimp only
      cases c.items <;> rfl
  | keyed =>
    unfold insertEntry
    rw [graph_withResolver, keys_withResolver]
    cases p.keys.key? child with
    | none => rfl
    | some key =>
      dsimp only
      cases p.graph.component? target with
      | none => rfl
      | some c =>
        dsimp only
        cases c.entries <;> rfl

theorem takeObject_withResolver (type : TypeInfo) (given : Option ObjectId) :
    (p.withResolver s).takeObject type given = (p.takeObject type given).withResolver s := by
  cases given with
  | some object => rfl
  | none =>
    rw [takeObject, takeObject, graph_withResolver]
    cases construct p.graph type with
    | error error => rfl
    | ok made => rfl

theorem resolver_applyAttributes (object : ObjectId) (type : TypeInfo)
    (attributes : List Markup.Attribute) :
    (p.applyAttributes object type attributes).2.resolver = p.resolver :=
  resolver_of_withResolver (·.applyAttributes object type attributes) fun s =>
    p.applyAttributes_withResolver s object type (Attribute.forall₂_alike_refl attributes)

theorem resolver_insertChild (target : ObjectId) (type : TypeInfo) (child : ObjectId) :
    (p.insertChild target type child).2.resolver = p.resolver :=
  resolver_of_withResolver (·.insertChild target type child) fun s =>
    p.insertChild_withResolver s target type child

theorem resolver_takeObject (type : TypeInfo) (given : Option ObjectId) :
    (p.takeObject type given).2.resolver = p.resolver :=
  resolver_of_withResolver (·.takeObject type given) fun s =>
    p.takeObject_withResolver s type given

end WithResolver

end Pass

/-! ## What is compared -/

/-- What two resolvers owe each other. -/
structure Comparison where
  /-- The resolvers that are compared. -/
  Resolvers : Resolver → Resolver → Prop
  /-- Whether the second pass is free once the first has been refused. -/
  Lenient : Prop
  /-- Whether the nodes that are compared may stand at different places. -/
  Apart : Prop
  resolves {r s : Resolver} {uri name : String} {type : TypeInfo} (h : Resolvers r s)
    (hok : (r.resolve uri name).1 = .ok type) :
    (s.resolve uri name).1 = .ok type ∧ Resolvers (r.resolve uri name).2 (s.resolve uri name).2
  refuses {r s : Resolver} {uri name : String} {error : MarkupError} (h : Resolvers r s)
    (herror : (r.resolve uri name).1 = .error error) :
    Lenient ∨ ∃ other, (s.resolve uri name).1 = .error other ∧ other.kind = error.kind

namespace Comparison

variable (C : Comparison)

/-- The same in both documents, if it is a matter of places. -/
def Same {α : Type} (a b : α) : Prop :=
  C.Apart ∨ a = b

variable {C} in
theorem Same.app {α β : Type} {f g : α → β} {a b : α} (h : C.Same f g) (hab : C.Same a b) :
    C.Same (f a) (g b) := by
  rcases h with hapart | rfl
  · exact Or.inl hapart
  · exact hab.imp_right (congrArg f)

/-- The property elements assign the same to the same property. -/
structure AlikeProperties (a b : OpenProperty) : Prop where
  property : a.property = b.property
  value : a.value = b.value
  start : C.Same a.start b.start

/-- The elements are read into the same object under the same name and type. -/
structure AlikeElements (a b : OpenElement) : Prop where
  localName : a.tag.name.localName = b.tag.name.localName
  object : a.object = b.object
  type : a.type = b.type
  start : C.Same a.start b.start
  property : Option.Rel C.AlikeProperties a.property b.property

/-- The documents have come equally far. -/
inductive AlikeStages : Stage → Stage → Prop where
  | prolog (root : Option ObjectId) : AlikeStages (.prolog root) (.prolog root)
  | content {a b : OpenElement} {as bs : List OpenElement} (h : C.AlikeElements a b)
      (outer : List.Forall₂ C.AlikeElements as bs) : AlikeStages (.content a as) (.content b bs)
  | epilog (root : ObjectId) : AlikeStages (.epilog root) (.epilog root)

/-- The second outcome agrees with the first: related results or errors of the same kind, from
passes that differ in nothing but their resolvers. -/
inductive Agrees {α β : Type} (Related : α → β → Prop) : Outcome α → Outcome β → Prop where
  | ok {a : α} {b : β} {p : Pass} {s : Resolver} (h : Related a b) (hs : C.Resolvers p.resolver s) :
      Agrees Related (.ok a, p) (.ok b, p.withResolver s)
  | error {first second : MarkupError} {p : Pass} {s : Resolver} (h : second.kind = first.kind) :
      Agrees Related (.error first, p) (.error second, p.withResolver s)
  | excused {error : MarkupError} {p : Pass} {outcome : Outcome β} (h : C.Lenient) :
      Agrees Related (.error error, p) outcome

/-- The second outcome follows the first: it agrees with it, or one of the two has broken off where
the other may have gone on. -/
inductive Follows {α β : Type} (Related : α → β → Prop) (first : Outcome α) (second : Outcome β) :
    Prop where
  | agrees (h : C.Agrees Related first second)
  | broken (hapart : C.Apart) (hbroken : first.1 = .error .aborted ∨ second.1 = .error .aborted)

section Steps

variable {C} {p : Pass} {s : Resolver}

theorem Follows.ok {α β : Type} {Related : α → β → Prop} {a : α} {b : β} (h : Related a b)
    (hs : C.Resolvers p.resolver s) : C.Follows Related (.ok a, p) (.ok b, p.withResolver s) :=
  .agrees (.ok h hs)

/-- Errors of the same kind, reported at the positions of the same node. -/
theorem Follows.at {α β : Type} {Related : α → β → Prop} {error other : MarkupError}
    {here there : Option Position} (hkind : other.kind = error.kind) (hplace : C.Same here there) :
    C.Follows Related (.error (error.at here), p) (.error (other.at there), p.withResolver s) := by
  rcases hplace with hapart | rfl
  · cases here with
    | none => exact .broken hapart (Or.inl rfl)
    | some here =>
      cases there with
      | none => exact .broken hapart (Or.inr rfl)
      | some there =>
        exact .agrees (.error (by rwa [MarkupError.kind_at_some, MarkupError.kind_at_some]))
  · exact .agrees (.error (MarkupError.kind_at_congr here hkind))

/-- An outcome agrees with itself under another resolver. -/
theorem Agrees.of_withResolver {α : Type} {outcome : Outcome α}
    (hs : C.Resolvers outcome.2.resolver s) :
    C.Agrees Eq outcome (outcome.withResolver s) := by
  rcases outcome with ⟨error | result, q⟩
  · exact .error rfl
  · exact .ok rfl hs

theorem resolveTag {a b : StartTag} (hname : a.name.Alike b.name) (hs : C.Resolvers p.resolver s) :
    C.Agrees Eq (p.resolveTag a) ((p.withResolver s).resolveTag b) := by
  unfold Pass.resolveTag
  rw [Pass.resolver_withResolver, ← hname.uri, ← hname.localName]
  rcases hfirst : p.resolver.resolve a.name.uri a.name.localName with ⟨error | type, r⟩
  · rcases C.refuses hs (congrArg Prod.fst hfirst) with hlenient | ⟨refusal, hrefusal, hkind⟩
    · exact .excused hlenient
    · rcases hsecond : s.resolve a.name.uri a.name.localName with ⟨answer, t⟩
      rw [hsecond] at hrefusal
      cases hrefusal
      exact .error hkind
  · obtain ⟨hok, hnext⟩ := C.resolves hs (congrArg Prod.fst hfirst)
    rcases hsecond : s.resolve a.name.uri a.name.localName with ⟨answer, t⟩
    rw [hsecond] at hok
    cases hok
    rw [hfirst, hsecond] at hnext
    exact .ok rfl hnext

theorem takeObject (type : TypeInfo) (given : Option ObjectId) (hs : C.Resolvers p.resolver s) :
    C.Agrees Eq (p.takeObject type given) ((p.withResolver s).takeObject type given) := by
  rw [p.takeObject_withResolver s type given]
  exact .of_withResolver (by rwa [p.resolver_takeObject])

theorem applyAttributes (object : ObjectId) (type : TypeInfo) {as bs : List Markup.Attribute}
    (hall : List.Forall₂ Markup.Attribute.Alike as bs) (hs : C.Resolvers p.resolver s) :
    C.Agrees Eq (p.applyAttributes object type as)
      ((p.withResolver s).applyAttributes object type bs) := by
  rw [p.applyAttributes_withResolver s object type hall]
  exact .of_withResolver (by rwa [p.resolver_applyAttributes])

theorem insertChild (target : ObjectId) (type : TypeInfo) (child : ObjectId)
    (hs : C.Resolvers p.resolver s) :
    C.Agrees Eq (p.insertChild target type child)
      ((p.withResolver s).insertChild target type child) := by
  rw [p.insertChild_withResolver s target type child]
  exact .of_withResolver (by rwa [p.resolver_insertChild])

/-! ## One node -/

/- The positions of offsets in the two documents. -/
variable {first second : Nat → Option Position} (hpositions : C.Same first second)

include hpositions

/-- A complaint whose text is all that spelling can change. -/
theorem misshapen {α β : Type} {Related : α → β → Prop} {fault spelled : ShapeFault}
    {start other : Nat} (hstart : C.Same start other) :
    C.Follows Related (.error (Hydration.misshapen first fault start), p)
      (.error (Hydration.misshapen second spelled other), p.withResolver s) := by
  have hkind : (MarkupError.structural (.shape spelled) none).kind =
    (MarkupError.structural (.shape fault) none).kind := rfl
  exact .at hkind (hpositions.app hstart)

theorem openElement (object : Option ObjectId) {a b : StartTag} {start other : Nat}
    (hstart : C.Same start other) (hname : a.name.Alike b.name)
    (hattributes : List.Forall₂ Attribute.Alike a.attributes b.attributes)
    (hs : C.Resolvers p.resolver s) :
    C.Follows C.AlikeElements (Hydration.openElement first p object a start)
      (Hydration.openElement second (p.withResolver s) object b other) := by
  unfold Hydration.openElement
  have hresolve := resolveTag hname hs
  generalize p.resolveTag a = tagged, (p.withResolver s).resolveTag b = retagged at hresolve ⊢
  cases hresolve with
  | excused hlenient => exact .agrees (.excused hlenient)
  | error hkind => exact .agrees (.error hkind)
  | @ok type _ q t htype ht =>
    subst htype
    have htake := takeObject type object ht
    dsimp only
    generalize q.takeObject type object = taken, (q.withResolver t).takeObject type object =
      retaken at htake ⊢
    cases htake with
    | excused hlenient => exact .agrees (.excused hlenient)
    | error hkind => exact .agrees (.error hkind)
    | @ok target _ r u htarget hu =>
      subst htarget
      have happly := applyAttributes target type hattributes hu
      dsimp only
      generalize r.applyAttributes target type a.attributes = applied at happly ⊢
      generalize (r.withResolver u).applyAttributes target type b.attributes = reapplied at happly ⊢
      cases happly with
      | excused hlenient => exact .agrees (.excused hlenient)
      | error hkind => exact .at hkind (hpositions.app hstart)
      | ok _ hw => exact .ok ⟨hname.localName, rfl, rfl, hstart, .none⟩ hw

theorem closeElement {a b : OpenElement} {as bs : List OpenElement} (hab : C.AlikeElements a b)
    (houter : List.Forall₂ C.AlikeElements as bs) (hs : C.Resolvers p.resolver s) :
    C.Follows C.AlikeStages (Hydration.closeElement first p a as)
      (Hydration.closeElement second (p.withResolver s) b bs) := by
  cases houter with
  | nil =>
    show C.Follows C.AlikeStages (.ok (.epilog a.object), p) (.ok (.epilog b.object),
      p.withResolver s)
    rw [hab.object]
    exact .ok (.epilog b.object) hs
  | @cons parent other as bs hparent houter =>
    obtain ⟨parentTag, parentObject, parentType, parentStart, parentProperty⟩ := parent
    obtain ⟨otherTag, otherObject, otherType, otherStart, otherProperty⟩ := other
    obtain ⟨hlocal, rfl, rfl, hstart, hproperty⟩ := hparent
    cases hproperty with
    | @some slot otherSlot hslot =>
      -- the object waits in the slot until the property element ends
      refine .ok (.content ⟨hlocal, rfl, rfl, hstart, .some ⟨hslot.property, ?_, hslot.start⟩⟩
        houter) hs
      show some (RawValue.object a.object) = some (.object b.object)
      rw [hab.object]
    | none =>
      unfold Hydration.closeElement
      dsimp only
      rw [← hab.object]
      have hinsert := insertChild parentObject parentType a.object hs
      generalize p.insertChild parentObject parentType a.object = inserted at hinsert ⊢
      generalize (p.withResolver s).insertChild parentObject parentType a.object =
        reinserted at hinsert ⊢
      cases hinsert with
      | excused hlenient => exact .agrees (.excused hlenient)
      | error hkind => exact .at hkind (hpositions.app hab.start)
      | ok _ ht => exact .ok (.content ⟨hlocal, rfl, rfl, hstart, .none⟩ houter) ht

theorem startElement {object : Option ObjectId} {a b : StartTag} {start other : Nat}
    (hstart : C.Same start other) (hab : a.Alike b) {as bs : List OpenElement}
    (houter : List.Forall₂ C.AlikeElements as bs) (hs : C.Resolvers p.resolver s) :
    C.Follows C.AlikeStages (Hydration.startElement first p object a start as)
      (Hydration.startElement second (p.withResolver s) object b other bs) := by
  unfold Hydration.startElement
  have hopen := openElement hpositions object hstart hab.name hab.attributes hs
  generalize Hydration.openElement first p object a start = opened at hopen ⊢
  generalize Hydration.openElement second (p.withResolver s) object b other = reopened at hopen ⊢
  cases hopen with
  | broken hapart hbroken =>
    refine .broken hapart (hbroken.imp (fun h => ?_) fun h => ?_)
    · obtain ⟨_, q⟩ := opened
      cases h
      rfl
    · obtain ⟨_, q⟩ := reopened
      cases h
      rfl
  | agrees hopen =>
    cases hopen with
    | excused hlenient => exact .agrees (.excused hlenient)
    | error hkind => exact .agrees (.error hkind)
    | ok helement ht =>
      dsimp only
      rw [hab.selfClosing]
      split
      · exact closeElement hpositions helement houter ht
      · exact .ok (.content helement houter) ht

omit hpositions in
theorem namedProperty?_alike {parent other a b : StartTag}
    (hparent : parent.name.localName = other.name.localName) (hab : a.Alike b) :
    namedProperty? parent a = namedProperty? other b := by
  unfold namedProperty?
  rw [hparent, hab.name.localName]

theorem startProperty {element other : OpenElement} {as bs : List OpenElement} {a b : StartTag}
    {start offset : Nat} (hstart : C.Same start offset) (helement : C.AlikeElements element other)
    (houter : List.Forall₂ C.AlikeElements as bs) (hab : a.Alike b)
    (hs : C.Resolvers p.resolver s) :
    C.Follows C.AlikeStages (Hydration.startProperty first p element as a start)
      (Hydration.startProperty second (p.withResolver s) other bs b offset) := by
  unfold Hydration.startProperty
  rw [namedProperty?_alike helement.localName hab, hab.selfClosing]
  cases namedProperty? other.tag b with
  | none => exact misshapen hpositions hstart
  | some property =>
    dsimp only
    split
    · exact misshapen hpositions hstart
    · exact .ok (.content ⟨helement.localName, helement.object, helement.type, helement.start,
        .some ⟨rfl, rfl, hstart⟩⟩ houter) hs

theorem stepElement {element other : OpenElement} {as bs : List OpenElement} {start offset : Nat}
    (hstart : C.Same start offset) {a b : Node} (helement : C.AlikeElements element other)
    (houter : List.Forall₂ C.AlikeElements as bs) (hab : a.Alike b)
    (hs : C.Resolvers p.resolver s) :
    C.Follows C.AlikeStages (Hydration.stepElement first p element as start a)
      (Hydration.stepElement second (p.withResolver s) other bs offset b) := by
  cases hab with
  | endElement _ _ => exact closeElement hpositions helement houter hs
  | text _ => exact .ok (.content helement houter) hs
  | blank => exact .ok (.content helement houter) hs
  | element htag =>
    unfold Hydration.stepElement
    dsimp only
    -- both passes ask for the position of the child
    have hplace := hpositions.app hstart
    cases hhere : first start with
    | none =>
      cases hthere : second offset with
      | none => exact .agrees (.error rfl)
      | some there =>
        rw [hhere, hthere] at hplace
        exact .broken (hplace.resolve_right nofun) (Or.inl rfl)
    | some here =>
      cases hthere : second offset with
      | none =>
        rw [hhere, hthere] at hplace
        exact .broken (hplace.resolve_right nofun) (Or.inr rfl)
      | some there =>
        dsimp only
        rw [htag.isPropertyElement]
        split
        · exact startProperty hpositions hstart helement houter htag hs
        · exact startElement hpositions hstart htag (.cons helement houter) hs

theorem stepProperty {element other : OpenElement} {as bs : List OpenElement}
    {slot otherSlot : OpenProperty} {start offset : Nat} (hstart : C.Same start offset) {a b : Node}
    (helement : C.AlikeElements element other) (houter : List.Forall₂ C.AlikeElements as bs)
    (hslot : C.AlikeProperties slot otherSlot) (hab : a.Alike b) (hs : C.Resolvers p.resolver s) :
    C.Follows C.AlikeStages (Hydration.stepProperty first p element as slot start a)
      (Hydration.stepProperty second (p.withResolver s) other bs otherSlot offset b) := by
  have hwith : ∀ {property otherProperty : Option OpenProperty},
      Option.Rel C.AlikeProperties property otherProperty →
      C.AlikeElements { element with property := property }
        { other with property := otherProperty } :=
    fun hproperty => ⟨helement.localName, helement.object, helement.type, helement.start, hproperty⟩
  unfold Hydration.stepProperty
  cases hab with
  | blank => exact .ok (.content helement houter) hs
  | endElement _ _ =>
    dsimp only
    rw [← hslot.value]
    cases slot.value with
    | none => exact misshapen hpositions hstart
    | some value =>
      dsimp only
      have hsecond : (p.withResolver s).assign other.object other.type otherSlot.property value =
          (p.assign element.object element.type slot.property value).map (·.withResolver s) := by
        rw [← helement.object, ← helement.type, ← hslot.property]
        exact p.assign_withResolver s element.object element.type slot.property value
      rw [hsecond]
      cases hassign : p.assign element.object element.type slot.property value with
      | error error => exact .at rfl (hpositions.app hslot.start)
      | ok next =>
        refine .ok (.content (hwith .none) houter) ?_
        rwa [Pass.resolver_of_assign hassign]
  | text content =>
    dsimp only
    rw [← hslot.value]
    cases slot.value with
    | some _ => exact misshapen hpositions hstart
    | none => exact .ok (.content (hwith (.some ⟨hslot.property, rfl, hslot.start⟩)) houter) hs
  | element htag =>
    dsimp only
    rw [← hslot.value, htag.isPropertyElement]
    cases slot.value with
    | some _ => exact misshapen hpositions hstart
    | none =>
      dsimp only
      split
      · exact misshapen hpositions hstart
      · exact startElement hpositions hstart htag (.cons helement houter) hs

/-- **One node** keeps the two passes in step. -/
theorem step {stage other : Stage} {start offset : Nat} (hstart : C.Same start offset) {a b : Node}
    (hstage : C.AlikeStages stage other) (hab : a.Alike b) (hs : C.Resolvers p.resolver s) :
    C.Follows C.AlikeStages (Hydration.step first p stage start a)
      (Hydration.step second (p.withResolver s) other offset b) := by
  cases hstage with
  | prolog root =>
    cases hab with
    | element htag => exact startElement hpositions hstart htag .nil hs
    | endElement _ _ => exact misshapen hpositions hstart
    | text _ => exact .ok (.prolog root) hs
    | blank => exact .ok (.prolog root) hs
  | @content element otherElement _ _ helement houter =>
    unfold Hydration.step
    dsimp only
    have hproperty := helement.property
    generalize element.property = property at hproperty ⊢
    generalize otherElement.property = otherProperty at hproperty ⊢
    cases hproperty with
    | none => exact stepElement hpositions hstart helement houter hab hs
    | some hslot => exact stepProperty hpositions hstart helement houter hslot hab hs
  | epilog root =>
    cases hab with
    | blank => exact .ok (.epilog root) hs
    | element _ => exact misshapen hpositions hstart
    | endElement _ _ => exact misshapen hpositions hstart
    | text _ => exact misshapen hpositions hstart

theorem finish {stage other : Stage} {start offset : Nat} (hstart : C.Same start offset)
    (hstage : C.AlikeStages stage other) (hs : C.Resolvers p.resolver s) :
    C.Follows Eq (Hydration.finish first stage start, p)
      (Hydration.finish second other offset, p.withResolver s) := by
  cases hstage with
  | prolog root => exact misshapen hpositions hstart
  | content _ _ => exact misshapen hpositions hstart
  | epilog root => exact .ok rfl hs

omit hpositions in
/-- Behind a step the two passes stay in step if they do so behind stages that are alike. -/
theorem Follows.goOn {first second : Nat → Option Position} {outcome follower : Outcome Stage}
    {rest behind : NodeFeed} (h : C.Follows C.AlikeStages outcome follower)
    (hrest : ∀ {stage other : Stage} {p : Pass} {s : Resolver}, outcome = (.ok stage, p) →
      C.AlikeStages stage other →
      C.Resolvers p.resolver s → C.Follows Eq (Hydration.assemble first p stage rest)
        (Hydration.assemble second (p.withResolver s) other behind)) :
    C.Follows Eq (outcome.goOn first rest) (follower.goOn second behind) := by
  cases h with
  | broken hapart hbroken =>
    exact .broken hapart (hbroken.imp (Outcome.goOn_of_error · rest)
      (Outcome.goOn_of_error · behind))
  | agrees h =>
    cases h with
    | excused hlenient => exact .agrees (.excused hlenient)
    | error hkind => exact .agrees (.error hkind)
    | ok hnext hs => exact hrest rfl hnext hs

/-- **A whole run** keeps the two passes in step, to the same root or to errors of the same kind. -/
theorem assemble {stage other : Stage} {f g : NodeFeed} (hfeed : f.Alike g) (hfeeds : C.Same f g)
    (hstage : C.AlikeStages stage other) (hs : C.Resolvers p.resolver s) :
    C.Follows Eq (Hydration.assemble first p stage f)
      (Hydration.assemble second (p.withResolver s) other g) := by
  induction hfeed generalizing p s stage other with
  | fault place placeB a b =>
    have hplace : C.Same place.start placeB.start := hfeeds.imp_right fun h => by cases h; rfl
    have hkind : (MarkupError.structural (.node b) none).kind =
      (MarkupError.structural (.node a) none).kind := rfl
    exact .at hkind (hpositions.app hplace)
  | finished place placeB =>
    have hplace : C.Same place.start placeB.start := hfeeds.imp_right fun h => by cases h; rfl
    exact finish hpositions hplace hstage hs
  | @node _ _ rest restB place placeB hnode _ ih =>
    have hplace : C.Same place.start placeB.start := hfeeds.imp_right fun h => by cases h; rfl
    have hrest : C.Same rest restB := hfeeds.imp_right fun h => by cases h; rfl
    rw [assemble_node, assemble_node]
    exact (step hpositions hplace hstage hnode hs).goOn fun _ hnext ht => ih hrest hnext ht

end Steps

section Loads

variable {C}

/-- What the first pass has made, the second has made. -/
theorem Follows.eq_ok {α : Type} {first second : Outcome α} {result : α}
    (h : C.Follows Eq first second) (htogether : ¬ C.Apart) (hok : first.1 = .ok result) :
    second.1 = .ok result ∧ second.2.graph = first.2.graph := by
  cases h with
  | broken hapart _ => exact absurd hapart htogether
  | agrees h =>
    cases h with
    | ok hsame _ =>
      subst hsame
      exact ⟨hok, rfl⟩
    | error _ => cases hok
    | excused _ => cases hok

/-- Without leniency, two passes of which none breaks off have the same result or fail for reasons
of the same kind, and leave the same graph behind. -/
theorem Follows.mapError_kind {α : Type} {first second : Outcome α} (h : C.Follows Eq first second)
    (hstrict : ¬ C.Lenient) (hfirst : first.1 ≠ .error .aborted)
    (hsecond : second.1 ≠ .error .aborted) :
    second.1.mapError MarkupError.kind = first.1.mapError MarkupError.kind ∧
    second.2.graph = first.2.graph := by
  cases h with
  | broken _ hbroken => exact (hbroken.elim hfirst hsecond).elim
  | agrees h =>
    cases h with
    | ok hsame _ =>
      subst hsame
      exact ⟨rfl, rfl⟩
    | error hkind => exact ⟨congrArg Except.error hkind, rfl⟩
    | excused hlenient => exact absurd hlenient hstrict

/-- Two loads, into the same graph and the same root. -/
theorem load (request other : LoadRequest) {text otherText : String}
    (hgraph : request.graph = other.graph) (hroot : request.root = other.root)
    (hs : C.Resolvers (.ofCatalog request.catalog request.localModule)
      (.ofCatalog other.catalog other.localModule))
    (hfeed : (NodeFeed.ofText text.toList).Alike (NodeFeed.ofText otherText.toList))
    (htexts : C.Same text otherText) :
    ∃ first second : Outcome ObjectId, C.Follows Eq first second ∧
      request.load text = (first.1, first.2.graph) ∧
      other.load otherText = (second.1, second.2.graph) := by
  obtain ⟨graph, catalog, localModule, root⟩ := request
  obtain ⟨_, otherCatalog, otherModule, _⟩ := other
  cases hgraph
  cases hroot
  have hsources := htexts.imp_right (congrArg String.toList)
  have hfollows := assemble (C := C) (p := .start graph (.ofCatalog catalog localModule))
    (hsources.imp_right (congrArg Position.ofOffset?)) hfeed
    (hsources.imp_right (congrArg NodeFeed.ofText)) (.prolog root) hs
  exact ⟨_, _, hfollows, rfl, rfl⟩

end Loads

/-! ## The same resolver -/

/-- Passes over the same catalogue with the same declarations read, over documents whose nodes stand
anywhere. -/
def sameResolver : Comparison where
  Resolvers := Eq
  Lenient := False
  Apart := True
  resolves := by
    rintro r s uri name type rfl hok
    exact ⟨hok, rfl⟩
  refuses := by
    rintro r s uri name error rfl herror
    exact Or.inr ⟨error, herror, rfl⟩

theorem sameResolver_same {α : Type} (a b : α) : sameResolver.Same a b :=
  Or.inl trivial

end Comparison

end MarkupForms.Hydration
