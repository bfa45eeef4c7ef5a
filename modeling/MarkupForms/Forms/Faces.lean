import MarkupForms.Forms.Framework
import MarkupForms.Objects.Graph

/-!
# Typed faces of framework objects

What an object of each framework implementation shows to code that knows its type: stored values
with the type that their property declares, and plain values, which always have one. A value of
another type reads like an absent one.
-/

namespace MarkupForms.Forms

/-- The typed reading of an object. -/
inductive Face where
  | label (text : Option String) (fontSize : Option Float) (xAlign : String) (id : Option String)
      (horizontal : String)
  | entry (text : Option String) (isPassword : Bool) (id : Option String)
  | stackLayout (orientation : String) (children : List ObjectId) (id : Option String)
  | contentPage (title : Option String) (content : Option ObjectId) (padding : Int64) (stored : Nat)
  | listView (rowHeight : Option Int64) (template : Option ObjectId) (items : Option Nat)
      (rows : List ObjectId)
  | resourceDictionary (entries : OrderedMap ObjectId)

/-- The value in the property store under `name`. -/
def managedValue? (state : ObjectState) (name : String) : Option Value :=
  state.store.bind (·.value? name)

/-- The member in the plain property `name`. -/
def plainMember (state : ObjectState) (name : String) : String :=
  ((state.plain? name).bind Value.asEnum?).getD ""

/-- The id of an object. -/
def plainId? (state : ObjectState) : Option String :=
  (state.plain? "Id").bind Value.asText?

/-- The typed face of an object; implementations without one have none. -/
def face? (state : ObjectState) : Option Face :=
  match state.implementation with
  | .label =>
    some (.label ((managedValue? state "Text").bind Value.asText?)
      ((managedValue? state "FontSize").bind Value.asFloat?) (plainMember state "XAlign")
      (plainId? state) (plainMember state "HorizontalOptions"))
  | .entry =>
    some (.entry ((managedValue? state "Text").bind Value.asText?)
      (((managedValue? state "IsPassword").bind Value.asBool?).getD false) (plainId? state))
  | .stackLayout =>
    some (.stackLayout (plainMember state "Orientation") (state.items.getD []) (plainId? state))
  | .contentPage =>
    some (.contentPage ((managedValue? state "Title").bind Value.asText?)
      ((managedValue? state "Content").bind Value.asObject?)
      (((state.plain? "Padding").bind Value.asInt?).getD 0)
      ((state.store.map (·.values.size)).getD 0))
  | .listView =>
    some (.listView ((managedValue? state "RowHeight").bind Value.asInt?)
      ((state.plain? "ItemTemplate").bind Value.asObject?)
      (((managedValue? state "ItemsSource").bind Value.asList?).map (·.length))
      (state.rows.getD []))
  | .resourceDictionary => some (.resourceDictionary (state.entries.getD .empty))
  | .textCell | .foreign _ => none

end MarkupForms.Forms
