import MarkupForms.Markup.Event

/-!
# Nodes of a document

A node is what a document contains once its names are understood: the start of an element, its end,
a run of text, or white space. A prefix before a colon stands for a namespace; an element or
attribute is known by that namespace and the name behind the colon, whatever the prefix.
-/

namespace MarkupForms.Markup

/-- A name as it is written, and what it stands for. -/
structure ExpandedName where
  written : String
  localName : String
  uri : String
  deriving Repr, DecidableEq

/-- An attribute with its references expanded. -/
structure Attribute where
  name : ExpandedName
  value : String
  deriving Repr, DecidableEq

/-- The start of an element. No end follows if the tag closes itself. -/
structure StartTag where
  name : ExpandedName
  attributes : List Attribute
  selfClosing : Bool
  deriving Repr, DecidableEq

namespace StartTag

/-- The first attribute with this namespace and local name. -/
def attribute? (tag : StartTag) (uri localName : String) : Option Attribute :=
  tag.attributes.find? fun a => a.name.uri == uri && a.name.localName == localName

/-- Whether the element stands for a property of the element around it, `Owner.Property`. -/
def isPropertyElement (tag : StartTag) : Bool :=
  tag.name.localName.toList.contains '.'

end StartTag

/-- A piece of a document's content. -/
inductive Node where
  | element (tag : StartTag)
  | endElement (written : String)
  | text (content : String)
  | blank
  deriving Repr, DecidableEq

/-- Why a node cannot be read. -/
inductive NodeFault where
  | unreadable (fault : ReadFault)
  | badTag (fault : TagFault)
  | badText (fault : EscapeFault)
  | undeclaredPrefix (name : String)
  deriving Repr, DecidableEq

/-- The text of a tag's fault. -/
def TagFault.message : TagFault → String
  | .badAttribute fault => "bad attribute: " ++ fault.message
  | .badValue key fault => "bad value for `" ++ key ++ "`: " ++ fault.message

/-- The text of a node's fault. -/
def NodeFault.message : NodeFault → String
  | .unreadable fault => "malformed markup: " ++ fault.message
  | .badTag fault => fault.message
  | .badText fault => "bad text content: " ++ fault.message
  | .undeclaredPrefix name => "undeclared namespace prefix `" ++ name ++ "`"

end MarkupForms.Markup
