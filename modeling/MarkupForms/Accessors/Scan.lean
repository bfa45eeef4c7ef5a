import MarkupForms.Accessors.FieldName
import MarkupForms.Accessors.TypePath
import MarkupForms.Hydration.Fault

/-!
# Scanning a document for named elements

The first element of a document is its root. If it declares a class, every element behind it that
has an id becomes a field: the id itself, the field's name and the path to the element's type. An id
that occurs again takes the place of the earlier one. Two ids whose field names agree are refused.
-/

namespace MarkupForms.Accessors

open Markup Hydration

/-- A named element. -/
structure Field where
  id : String
  name : String
  typePath : String
  deriving Repr, DecidableEq

/-- The class of a document and its named elements. -/
structure AccessorSet where
  namespaceName : Option String
  className : String
  fields : List Field
  deriving Repr, DecidableEq

namespace AccessorSet

/-- The name of the structure that holds the elements. -/
def structName (set : AccessorSet) : String :=
  set.className ++ "Elements"

/-- The class with its namespace. -/
def fullClass (set : AccessorSet) : String :=
  match set.namespaceName with
  | some namespaceName => namespaceName ++ "." ++ set.className
  | none => set.className

end AccessorSet

/-- Why a document has no accessors. -/
inductive ScanError where
  | noRoot
  | invalidClass (text : String)
  | invalidId (id : String)
  | fieldCollision (first second field : String)
  | markup (error : MarkupError)
  deriving Repr, DecidableEq

/-- The text of an error. -/
def ScanError.message : ScanError → String
  | .noRoot => "document has no root element"
  | .invalidClass text => "x:Class `" ++ text ++ "` does not name a type"
  | .invalidId id => "Id `" ++ id ++ "` is not a valid Rust identifier"
  | .fieldCollision first second field =>
    "Ids `" ++ first ++ "` and `" ++ second ++ "` both map to field `" ++ field ++ "`"
  | .markup error => error.message

/-- What happens on the way through a document. -/
inductive ScanNote where
  | asideSkipped
  | noClass (element : String)
  | repeatedId (id typePath : String)
  deriving Repr, DecidableEq

/-- An outcome with the notes that were taken before it. -/
abbrev Scanned (α : Type) := Except ScanError α × List ScanNote

/-- The outcome after further notes in front. -/
def Scanned.after {α : Type} (notes : List ScanNote) (scanned : Scanned α) : Scanned α :=
  (scanned.1, notes ++ scanned.2)

/-- The notes about the asides before a node. -/
def asideNotes (place : Place) : List ScanNote :=
  List.replicate place.asides .asideSkipped

/-! ## Fields -/

/-- The id of an element: the attribute without a namespace, else the one of markup metadata. -/
def elementId? (tag : StartTag) : Option String :=
  ((tag.attribute? "" "Id").or (tag.attribute? metadataNamespace "Id")).map (·.value)

/-- The field of an element with the given id. -/
def fieldOf (classNamespace : Option String) (tag : StartTag) (id : String) :
    Except ScanError Field :=
  match fieldName? id with
  | none => .error (.invalidId id)
  | some name =>
    match typePath classNamespace tag.name with
    | .error fault => .error (.markup (.declaration tag.name.uri fault))
    | .ok path => .ok ⟨id, name, path⟩

/-- The fields with that of one more element, which must not be a property element to count. -/
def addElement (classNamespace : Option String) (fields : OrderedMap Field) (tag : StartTag) :
    Scanned (OrderedMap Field) :=
  if tag.isPropertyElement then (.ok fields, [])
  else
    match elementId? tag with
    | none => (.ok fields, [])
    | some id =>
      match fieldOf classNamespace tag id with
      | .error error => (.error error, [])
      | .ok field =>
        let notes := (fields.get? id).toList.map fun old => .repeatedId old.id old.typePath
        (.ok (fields.insert id field), notes)

/-- The first two fields that share a name, the earlier one being the last before the later one. -/
def collision? : (seen : OrderedMap String) → List Field → Option ScanError
  | _, [] => none
  | seen, field :: fields =>
    match seen.get? field.name with
    | some first => some (.fieldCollision first field.id field.name)
    | none => collision? (seen.insert field.name field.id) fields

/-! ## Documents -/

section Scanning

/- The position of an offset in the document, if there is one. -/
variable (position : Nat → Option Position)

/-- A fault of the document at its place. -/
def scanFault (place : Place) (fault : NodeFault) : ScanError :=
  .markup ((StructuralFault.node fault).at (position place.start))

/-- The root element and the nodes behind it. -/
def findRoot : NodeFeed → Scanned (StartTag × NodeFeed)
  | .node place (.element tag) rest => (.ok (tag, rest), asideNotes place)
  | .node place _ rest => Scanned.after (asideNotes place) (findRoot rest)
  | .fault place fault => (.error (scanFault position place fault), asideNotes place)
  | .finished place => (.error .noRoot, asideNotes place)

/-- The fields of all elements in a feed, added to those there are. -/
def collectFields (classNamespace : Option String) (fields : OrderedMap Field) :
    NodeFeed → Scanned (OrderedMap Field)
  | .node place (.element tag) rest =>
    match addElement classNamespace fields tag with
    | (.error error, notes) => (.error error, asideNotes place ++ notes)
    | (.ok more, notes) =>
      Scanned.after (asideNotes place ++ notes) (collectFields classNamespace more rest)
  | .node place _ rest =>
    Scanned.after (asideNotes place) (collectFields classNamespace fields rest)
  | .fault place fault => (.error (scanFault position place fault), asideNotes place)
  | .finished place => (.ok fields, asideNotes place)

/-- The accessors of a document whose root declares the class `text`. -/
def scanClass (text : String) (rest : NodeFeed) : Scanned (Option AccessorSet) :=
  match Declaration.parse text with
  | .error fault => (.error (.markup (.declaration text fault)), [])
  | .ok decl =>
    match decl.typeName with
    | none => (.error (.invalidClass text), [])
    | some className =>
      match collectFields position decl.namespaceName .empty rest with
      | (.error error, notes) => (.error error, notes)
      | (.ok fields, notes) =>
        match collision? .empty fields.values with
        | some error => (.error error, notes)
        | none => (.ok (some ⟨decl.namespaceName, className, fields.values⟩), notes)

/-- The accessors of the document with this feed. -/
def scanFeed (feed : NodeFeed) : Scanned (Option AccessorSet) :=
  match findRoot position feed with
  | (.error error, notes) => (.error error, notes)
  | (.ok (root, rest), notes) =>
    Scanned.after notes <|
      match root.attribute? metadataNamespace "Class" with
      | none => (.ok none, [.noClass root.name.written])
      | some className => scanClass position className.value rest

end Scanning

/-- The accessors of a document, none if its root declares no class. -/
def scan (text : String) : Scanned (Option AccessorSet) :=
  let source := text.toList
  scanFeed (Position.ofOffset? source) (NodeFeed.ofText source)

end MarkupForms.Accessors
