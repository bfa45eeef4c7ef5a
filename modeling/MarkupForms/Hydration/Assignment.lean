import MarkupForms.Hydration.Resolver
import MarkupForms.Hydration.Tables

/-!
# Assigning properties

One named value goes to one place. `Resources` shares the entries of a keyed container with the rest
of the pass. Text that begins with a brace becomes a binding on a managed property. Any other value
is coerced to the property's kind and goes to the property store, or to the object's own field if
the property is a plain one. A refused assignment changes nothing.
-/

namespace MarkupForms.Hydration

/-- What a pass over a document works on: the objects, the resources and keys declared so far, and
the way from names to types. -/
structure Pass where
  graph : Graph
  resources : ResourceTable
  keys : KeyTable
  resolver : Resolver

namespace Pass

/-- A pass that has read nothing yet. -/
def start (graph : Graph) (resolver : Resolver) : Pass :=
  ⟨graph, .empty, .empty, resolver⟩

/-- The pass with another state of the object `id`. -/
def update (p : Pass) (id : ObjectId) (c : Component) : Pass :=
  { p with graph := p.graph.set id c }

/-! ## Resources -/

/-- The resources with the entries of a keyed container. -/
def shareEntries (p : Pass) (id : ObjectId) : Except MarkupError Pass :=
  match (p.graph.component? id).bind (·.entries) with
  | some entries => .ok { p with resources := p.resources.insertAll entries.toList }
  | none =>
    .error (.structural (.assignment (.noEntriesToShare (p.graph.typeName id))) none)

/-- Assigns the property `Resources` of an object of type `type`. -/
def assignResources (p : Pass) (type : TypeInfo) (raw : RawValue) : Except MarkupError Pass :=
  let refused := .error (.structural (.assignment (.resourcesNotKeyed type.name)) none)
  match raw with
  | .text _ => refused
  | .object id =>
    if (p.graph.component? id).map (·.type.containerKind) = some .keyed then p.shareEntries id
    else refused

/-! ## Bindings -/

/-- Whether a text is meant as a binding expression. -/
def isExpression (text : String) : Bool :=
  (Text.trimLeft text.toList).head? == some '{'

/-- The binding that a text spells. Its converter is the resource of that key, if there is one by
now. -/
def readBinding (resources : ResourceTable) (text : String) : Except MarkupError Binding :=
  match Expression.BindingExpr.parse text with
  | .error fault => .error (.expression text fault)
  | .ok expr =>
    .ok ⟨expr.path, expr.converter.bind resources.get?, expr.mode.getD .default⟩

/-- Attaches the binding that a text spells to a managed property. -/
def assignBinding (p : Pass) (target : ObjectId) (type : TypeInfo) (name text : String) :
    Except MarkupError Pass :=
  match type.findManaged name with
  | none => .error (.notBindable type.name name)
  | some property =>
    match readBinding p.resources text with
    | .error error => .error error
    | .ok binding =>
      match p.graph.component? target with
      | none => .error (.notBindable type.name name)
      | some c =>
        match c.store with
        | none => .error (.notBindable type.name name)
        | some store =>
          .ok (p.update target { c with store := some (store.setBinding property binding) })

/-! ## Values -/

/-- Coerces a value for the pass's objects. -/
def coerceFor (p : Pass) (kind : ValueKind) (name : String) (raw : RawValue) :
    Except MarkupError Value :=
  (coerce p.graph.typeName kind name raw).mapError fun fault =>
    .structural (.assignment (.coercion fault)) none

/-- Stores a value under a managed property. -/
def assignManaged (p : Pass) (target : ObjectId) (type : TypeInfo) (property : ManagedProperty)
    (name : String) (value : Value) : Except MarkupError Pass :=
  let refused := .error (.structural (.assignment (.noStore type.name name)) none)
  match p.graph.component? target with
  | none => refused
  | some c =>
    match c.store with
    | none => refused
    | some store => .ok (p.update target { c with store := some (store.setValue property value) })

/-- Writes a value into a plain property. -/
def assignPlain (p : Pass) (target : ObjectId) (name : String) (value : Value) :
    Except MarkupError Pass :=
  match p.graph.component? target with
  | none => .ok p
  | some c =>
    match c.toObjectState.setPlain name value with
    | .error error => .error (.plain error)
    | .ok state => .ok (p.update target { c with toObjectState := state })

/-- Assigns a value or an object to the property `name` of an object whose declared type is
`type`. -/
def assignValue (p : Pass) (target : ObjectId) (type : TypeInfo) (name : String) (raw : RawValue) :
    Except MarkupError Pass :=
  match type.findManaged name, type.findPlain name with
  | some property, _ =>
    match p.coerceFor property.kind name raw with
    | .error error => .error error
    | .ok value => p.assignManaged target type property name value
  | none, some kind =>
    match p.coerceFor kind name raw with
    | .error error => .error error
    | .ok value => p.assignPlain target name value
  | none, none => .error (.propertyNotFound type.name name)

/-- Assigns a raw value to the property `name` of an object whose declared type is `type`. -/
def assign (p : Pass) (target : ObjectId) (type : TypeInfo) (name : String) (raw : RawValue) :
    Except MarkupError Pass :=
  if name = "Resources" then p.assignResources type raw
  else
    match raw with
    | .text text =>
      if isExpression text then p.assignBinding target type name text
      else p.assignValue target type name raw
    | .object _ => p.assignValue target type name raw

end Pass

end MarkupForms.Hydration
