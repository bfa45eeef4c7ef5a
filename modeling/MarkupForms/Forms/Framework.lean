import MarkupForms.Types.Catalog

/-!
# The framework's types

The built-in types of the module and namespace `Kiln.Forms`, which unprefixed markup elements name.
Abstract types (`BindableObject`, `View`, `Page`, `Cell`) carry the shared properties; every other
type starts its objects in the state given beside it.
-/

namespace MarkupForms.Forms

/-- The module of the framework's types, and their namespace. -/
def moduleName : String := "Kiln.Forms"

/-! ## Enumerations -/

/-- How a view is placed along the horizontal axis. -/
def layoutOptions : EnumInfo := ⟨"LayoutOptions", ["Start", "Center", "End", "Fill"]⟩

/-- How text is placed inside its view. -/
def textAlignment : EnumInfo := ⟨"TextAlignment", ["Start", "Center", "End"]⟩

/-- The direction of a stack. -/
def stackOrientation : EnumInfo := ⟨"StackOrientation", ["Vertical", "Horizontal"]⟩

/-! ## Building blocks -/

/-- A managed property that `owner` declares. -/
def managed (owner name : String) (kind : ValueKind) : PropertyInfo :=
  .managed ⟨name, owner, kind⟩

/-- A framework type: the `index`-th declaration, on top of `base`. -/
def declare (index : Nat) (name : String) (base : Option TypeInfo) (isManaged : Bool)
    (container : ContainerKind) (properties : List PropertyInfo)
    (constructor : Option ObjectState) : TypeInfo :=
  TypeInfo.derive ⟨⟨moduleName, index⟩, moduleName, moduleName, name, isManaged, container,
    properties, constructor⟩ base

/-- An object with a property store, the given plain fields, and values for some of them. -/
def stored (implementation : Implementation) (fields : List PlainField)
    (values : List (String × Value)) : ObjectState :=
  { ObjectState.bare implementation implementation.name with
    store := some .empty
    plainAccess := .fields implementation.name fields
    plainValues := .ofList values }

/-- The plain fields that every view has. -/
def viewFields : List PlainField := [⟨"Id", .text⟩, ⟨"HorizontalOptions", .enum layoutOptions⟩]

/-- A view with further plain fields. Views fill the available width until told otherwise. -/
def view (implementation : Implementation) (fields : List PlainField)
    (values : List (String × Value)) : ObjectState :=
  stored implementation (fields ++ viewFields) (values ++ [("HorizontalOptions", .enum "Fill")])

/-! ## The states of new objects -/

/-- A new run of read-only text. -/
def newLabel : ObjectState :=
  view .label [⟨"XAlign", .enum textAlignment⟩] [("XAlign", .enum "Start")]

/-- A new single-line text field. -/
def newEntry : ObjectState := view .entry [] []

/-- A new stack: its children stand in one line, in order of insertion. -/
def newStackLayout : ObjectState :=
  { view .stackLayout [⟨"Orientation", .enum stackOrientation⟩]
      [("Orientation", .enum "Vertical")] with
    items := some [] }

/-- A new page around one content view. -/
def newContentPage : ObjectState :=
  stored .contentPage [⟨"Padding", .int⟩] [("Padding", .int 0)]

/-- A new list, whose rows are stamped from its item template. -/
def newListView : ObjectState :=
  { view .listView [⟨"ItemTemplate", .object⟩] [] with rows := some [] }

/-- A new row with a primary and a detail line. -/
def newTextCell : ObjectState := stored .textCell [] []

/-- A new table of objects that a document shares. -/
def newResourceDictionary : ObjectState :=
  { ObjectState.bare .resourceDictionary "ResourceDictionary" with entries := some .empty }

/-! ## The types -/

def bindableObject : TypeInfo := declare 0 "BindableObject" none true .none [] none

def viewType : TypeInfo :=
  declare 1 "View" (some bindableObject) true .none
    [managed "View" "IsVisible" .bool, managed "View" "Opacity" .float, .plain "Id" .text,
      .plain "HorizontalOptions" (.enum layoutOptions)]
    none

def label : TypeInfo :=
  declare 2 "Label" (some viewType) true .none
    [managed "Label" "Text" .text, managed "Label" "FontSize" .float,
      .plain "XAlign" (.enum textAlignment)]
    (some newLabel)

def entry : TypeInfo :=
  declare 3 "Entry" (some viewType) true .none
    [managed "Entry" "Text" .text, managed "Entry" "Placeholder" .text,
      managed "Entry" "IsPassword" .bool]
    (some newEntry)

def stackLayout : TypeInfo :=
  declare 4 "StackLayout" (some viewType) true .items
    [managed "StackLayout" "Spacing" .float, .plain "Orientation" (.enum stackOrientation)]
    (some newStackLayout)

def page : TypeInfo :=
  declare 5 "Page" (some bindableObject) true .none
    [managed "Page" "Title" .text, .plain "Padding" .int] none

def contentPage : TypeInfo :=
  declare 6 "ContentPage" (some page) true .none [managed "ContentPage" "Content" .object]
    (some newContentPage)

def listView : TypeInfo :=
  declare 7 "ListView" (some viewType) true .none
    [managed "ListView" "RowHeight" .int, managed "ListView" "Header" .text,
      managed "ListView" "ItemsSource" .list, .plain "ItemTemplate" .object]
    (some newListView)

def cell : TypeInfo := declare 8 "Cell" (some bindableObject) true .none [] none

def textCell : TypeInfo :=
  declare 9 "TextCell" (some cell) true .none
    [managed "TextCell" "Text" .text, managed "TextCell" "Detail" .text] (some newTextCell)

def resourceDictionary : TypeInfo :=
  declare 10 "ResourceDictionary" none false .keyed [] (some newResourceDictionary)

/-- The framework's types in order of registration. -/
def types : List TypeInfo :=
  [bindableObject, viewType, label, entry, stackLayout, page, contentPage, listView, cell, textCell,
    resourceDictionary]

/-- The framework module. -/
def typeModule : TypeModule := ⟨moduleName, types, []⟩

/-- The catalogue with the framework module and no other. -/
def catalog : Catalog := ⟨[typeModule]⟩

/-- The framework module passes the checks of registration. -/
theorem register_typeModule : Catalog.empty.register typeModule = .ok catalog := by
  have h : checkTypes moduleName [] types = none := by decide +kernel
  simp only [Catalog.register, Catalog.module?, Catalog.empty, List.find?_nil, Option.isSome_none,
    Bool.false_eq_true, if_false, typeModule, h, List.nil_append, catalog]

end MarkupForms.Forms
