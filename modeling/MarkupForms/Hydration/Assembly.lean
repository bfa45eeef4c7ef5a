import MarkupForms.Hydration.Assignment

/-!
# Assembling objects from nodes

A document is assembled in one pass over its nodes. Elements become objects: their attributes are
assigned when they start; inside, a property element `Owner.Property` assigns its single value when
it ends, and any other element is inserted into the object around it when it ends. What is open is
kept on a stack, innermost first, so one node is one step and a run is a recursion on the feed.

A step that fails keeps what earlier steps, and earlier attributes of its own tag, have done to the
objects.

The position of an element inside another one is asked for before the element is read, those of
other nodes only to report an error. Where there is none, the reading breaks off.
-/

namespace MarkupForms.Hydration

open Markup

/-- A property element on the way: what it assigns and the value found so far. -/
structure OpenProperty where
  tag : StartTag
  property : String
  start : Nat
  value : Option RawValue
  deriving Repr, DecidableEq

/-- An element on the way: its object, the type it names, and its open property element. -/
structure OpenElement where
  tag : StartTag
  object : ObjectId
  type : TypeInfo
  start : Nat
  property : Option OpenProperty

/-- How far a document has come. -/
inductive Stage where
  /-- Before the root element, which is read into a given object or into a new one. -/
  | prolog (root : Option ObjectId)
  /-- Inside an element and those around it. -/
  | content (element : OpenElement) (outer : List OpenElement)
  /-- Behind the root element. -/
  | epilog (root : ObjectId)

/-- What a step yields, and the pass behind it. -/
abbrev Outcome (α : Type) := Except MarkupError α × Pass

namespace Pass

/-! ## Attributes -/

/-- What an attribute is for. Only attributes without a namespace set properties, and the id, which
may also be written as metadata. -/
inductive AttributeRole where
  | property (name : String)
  | key
  | ignored
  deriving Repr, DecidableEq

/-- The role of an attribute. -/
def roleOf (name : ExpandedName) : AttributeRole :=
  if name.uri = "" then .property name.localName
  else if name.uri = metadataNamespace then
    if name.localName = "Id" then .property "Id"
    else if name.localName = "Key" then .key
    else .ignored
  else .ignored

/-- Applies one attribute to an object. -/
def applyAttribute (p : Pass) (object : ObjectId) (type : TypeInfo) (attr : Markup.Attribute) :
    Except MarkupError Pass :=
  match roleOf attr.name with
  | .property name => p.assign object type name (.text attr.value)
  | .key => .ok { p with keys := p.keys.declare object attr.value }
  | .ignored => .ok p

/-- Applies attributes in order, up to the first that is refused. -/
def applyAttributes (p : Pass) (object : ObjectId) (type : TypeInfo) :
    List Markup.Attribute → Outcome Unit
  | [] => (.ok (), p)
  | attr :: attrs =>
    match p.applyAttribute object type attr with
    | .ok next => next.applyAttributes object type attrs
    | .error error => (.error error, p)

/-! ## Children -/

/-- Puts an object into the ordered items of another. -/
def appendItem (p : Pass) (target : ObjectId) (type : TypeInfo) (child : ObjectId) : Outcome Unit :=
  match p.graph.component? target with
  | none => (.error (.structural (.insertion (.noItems type.name)) none), p)
  | some c =>
    match c.items with
    | none => (.error (.structural (.insertion (.noItems type.name)) none), p)
    | some items => (.ok (), p.update target { c with items := some (items ++ [child]) })

/-- Puts an object under its declared key into the entries of another and among the resources. The
key is taken even if there are no entries. -/
def insertEntry (p : Pass) (target : ObjectId) (type : TypeInfo) (child : ObjectId) :
    Outcome Unit :=
  match p.keys.key? child with
  | none =>
    (.error (.structural (.insertion (.noKey type.name (p.graph.typeName child))) none), p)
  | some key =>
    let taken := { p with keys := p.keys.erase child }
    match p.graph.component? target with
    | none => (.error (.structural (.insertion (.noEntries type.name)) none), taken)
    | some c =>
      match c.entries with
      | none => (.error (.structural (.insertion (.noEntries type.name)) none), taken)
      | some entries =>
        let filled := taken.update target { c with entries := some (entries.insert key child) }
        (.ok (), { filled with resources := filled.resources.insert key child })

/-- Inserts a child into an object in the way of the object's type. -/
def insertChild (p : Pass) (target : ObjectId) (type : TypeInfo) (child : ObjectId) :
    Outcome Unit :=
  match type.containerKind with
  | .items => p.appendItem target type child
  | .keyed => p.insertEntry target type child
  | .none =>
    (.error (.structural (.insertion (.noContainer type.name (p.graph.typeName child))) none), p)

/-! ## Objects -/

/-- The type that a tag names. -/
def resolveTag (p : Pass) (tag : StartTag) : Outcome TypeInfo :=
  match p.resolver.resolve tag.name.uri tag.name.localName with
  | (type, resolver) => (type, { p with resolver := resolver })

/-- The object that an element is read into: the given one, else a new one of the type. -/
def takeObject (p : Pass) (type : TypeInfo) : Option ObjectId → Outcome ObjectId
  | some object => (.ok object, p)
  | none =>
    match construct p.graph type with
    | .ok (object, graph) => (.ok object, { p with graph := graph })
    | .error error => (.error error, p)

end Pass

/-! ## One node -/

section Steps

/- The position of an offset in the document, if there is one. -/
variable (position : Nat → Option Position)

/-- A complaint about the document's shape at an offset. -/
def misshapen (fault : ShapeFault) (start : Nat) : MarkupError :=
  (StructuralFault.shape fault).at (position start)

/-- Opens an element: resolves its type, finds its object, and applies its attributes. -/
def openElement (p : Pass) (object : Option ObjectId) (tag : StartTag) (start : Nat) :
    Outcome OpenElement :=
  match p.resolveTag tag with
  | (.error error, p) => (.error error, p)
  | (.ok type, p) =>
    match p.takeObject type object with
    | (.error error, p) => (.error error, p)
    | (.ok object, p) =>
      match p.applyAttributes object type tag.attributes with
      | (.error error, p) => (.error (error.at (position start)), p)
      | (.ok (), p) => (.ok ⟨tag, object, type, start, none⟩, p)

/-- Ends an element: its object becomes the value of the open property element around it, else a
child of the object around it, else the root. -/
def closeElement (p : Pass) (element : OpenElement) : List OpenElement → Outcome Stage
  | [] => (.ok (.epilog element.object), p)
  | parent :: outer =>
    match parent.property with
    | some property =>
      let filled := { property with value := some (.object element.object) }
      (.ok (.content { parent with property := some filled } outer), p)
    | none =>
      match p.insertChild parent.object parent.type element.object with
      | (.ok (), p) => (.ok (.content parent outer), p)
      | (.error error, p) => (.error (error.at (position element.start)), p)

/-- Starts an element inside others; one that closes itself ends at once. -/
def startElement (p : Pass) (object : Option ObjectId) (tag : StartTag) (start : Nat)
    (outer : List OpenElement) : Outcome Stage :=
  match openElement position p object tag start with
  | (.error error, p) => (.error error, p)
  | (.ok element, p) =>
    if tag.selfClosing then closeElement position p element outer
    else (.ok (.content element outer), p)

/-- The property of `parent` that a property element names: the part behind the last dot, the part
before it being the name of the element around it. -/
def namedProperty? (parent child : StartTag) : Option String :=
  match Text.splitAtLast? '.' child.name.localName.toList with
  | some (owner, property) =>
    if String.ofList owner = parent.name.localName ∧ property ≠ [] then
      some (String.ofList property)
    else none
  | none => none

/-- Starts a property element; one that closes itself has no value. -/
def startProperty (p : Pass) (element : OpenElement) (outer : List OpenElement) (tag : StartTag)
    (start : Nat) : Outcome Stage :=
  match namedProperty? element.tag tag with
  | none =>
    let fault := .foreignProperty tag.name.written element.tag.name.written
    (.error (misshapen position fault start), p)
  | some property =>
    if tag.selfClosing then
      (.error (misshapen position (.emptyProperty tag.name.written) start), p)
    else
      (.ok (.content { element with property := some ⟨tag, property, start, none⟩ } outer), p)

/-- A node directly inside an element. -/
def stepElement (p : Pass) (element : OpenElement) (outer : List OpenElement) (start : Nat) :
    Node → Outcome Stage
  | .endElement _ => closeElement position p element outer
  | .element tag =>
    match position start with
    | none => (.error .aborted, p)
    | some _ =>
      if tag.isPropertyElement then startProperty position p element outer tag start
      else startElement position p none tag start (element :: outer)
  | .text _ | .blank => (.ok (.content element outer), p)

/-- An element that is read on stands at a position. -/
theorem position_of_stepElement {position : Nat → Option Position} {p : Pass}
    {element : OpenElement} {outer : List OpenElement} {start : Nat} {tag : StartTag}
    {stage : Stage}
    (h : (stepElement position p element outer start (.element tag)).1 = .ok stage) :
    ∃ here, position start = some here := by
  rw [stepElement] at h
  cases hposition : position start with
  | none =>
    rw [hposition] at h
    cases h
  | some here => exact ⟨here, rfl⟩

/-- A node directly inside the property element `slot` of `element`. -/
def stepProperty (p : Pass) (element : OpenElement) (outer : List OpenElement)
    (slot : OpenProperty) (start : Nat) : Node → Outcome Stage
  | .endElement _ =>
    match slot.value with
    | none => (.error (misshapen position (.emptyProperty slot.tag.name.written) start), p)
    | some value =>
      match p.assign element.object element.type slot.property value with
      | .error error => (.error (error.at (position slot.start)), p)
      | .ok next => (.ok (.content { element with property := none } outer), next)
  | .blank => (.ok (.content element outer), p)
  | .text content =>
    match slot.value with
    | some _ => (.error (misshapen position (.repeatedValue slot.tag.name.written) start), p)
    | none =>
      let filled := { slot with value := some (.text (Text.trimmed content)) }
      (.ok (.content { element with property := some filled } outer), p)
  | .element tag =>
    match slot.value with
    | some _ => (.error (misshapen position (.repeatedValue slot.tag.name.written) start), p)
    | none =>
      if tag.isPropertyElement then
        let fault := .nestedProperty tag.name.written slot.tag.name.written
        (.error (misshapen position fault start), p)
      else startElement position p none tag start (element :: outer)

/-- A node, wherever the document has come to. Before the root element there may be text, behind it
there may not. -/
def step (p : Pass) (stage : Stage) (start : Nat) (node : Node) : Outcome Stage :=
  match stage with
  | .prolog root =>
    match node with
    | .element tag => startElement position p root tag start []
    | .endElement written => (.error (misshapen position (.endBeforeRoot written) start), p)
    | .text _ | .blank => (.ok stage, p)
  | .content element outer =>
    match element.property with
    | some slot => stepProperty position p element outer slot start node
    | none => stepElement position p element outer start node
  | .epilog _ =>
    match node with
    | .blank => (.ok stage, p)
    | _ => (.error (misshapen position .contentBehindRoot start), p)

/-- The end of the document: complete behind the root element only. -/
def finish (stage : Stage) (start : Nat) : Except MarkupError ObjectId :=
  match stage with
  | .prolog _ => .error (misshapen position .noRoot start)
  | .content element _ =>
    let name :=
      match element.property with
      | some slot => slot.tag.name.written
      | none => element.tag.name.written
    .error (misshapen position (.endInside name) start)
  | .epilog root => .ok root

/-! ## Whole documents -/

/-- Takes the nodes of a feed one by one; the result is the root object. -/
def assemble (p : Pass) (stage : Stage) : NodeFeed → Outcome ObjectId
  | .node place node rest =>
    match step position p stage place.start node with
    | (.ok next, p) => assemble p next rest
    | (.error error, p) => (.error error, p)
  | .fault place fault => (.error ((StructuralFault.node fault).at (position place.start)), p)
  | .finished place => (finish position stage place.start, p)

end Steps

end MarkupForms.Hydration
