import MarkupForms.Text.Quoted
import MarkupForms.Types.Basic

/-!
# Object graphs

A graph holds objects, each with its type and state, and grows at the end: `alloc` returns the first
identity that is not in use, and no identity is ever reused. Objects refer to each other by
identity, so two properties may share an object and a cycle is possible.
-/

namespace MarkupForms

/-- An object: its state and its runtime type. -/
structure Component extends ObjectState where
  type : TypeInfo

/-- The objects made so far; an identity is a position. -/
structure Graph where
  components : Array Component

namespace Graph

/-- The graph without objects. -/
def empty : Graph := ⟨#[]⟩

instance : Inhabited Graph := ⟨empty⟩

/-- The number of objects. -/
def size (g : Graph) : Nat :=
  g.components.size

/-- The object with identity `id`. -/
def component? (g : Graph) (id : ObjectId) : Option Component :=
  g.components[id.index]?

/-- A new object and the graph with it. -/
def alloc (g : Graph) (c : Component) : ObjectId × Graph :=
  (⟨g.size⟩, ⟨g.components.push c⟩)

/-- The graph with the object `id` replaced. -/
def set (g : Graph) (id : ObjectId) (c : Component) : Graph :=
  ⟨g.components.setIfInBounds id.index c⟩

/-- The graph with `f` applied to the object `id`. -/
def modify (g : Graph) (id : ObjectId) (f : Component → Component) : Graph :=
  match g.component? id with
  | some c => g.set id (f c)
  | none => g

/-- A new instance of `type`, unless the type is abstract. -/
def construct (g : Graph) (type : TypeInfo) : Option (ObjectId × Graph) :=
  type.constructor.map fun state => g.alloc { state with type := type }

/-- The name of the object's runtime type. -/
def typeName (g : Graph) (id : ObjectId) : String :=
  ((g.component? id).map (·.type.name)).getD ""

/-- The value of the object's property `name`. -/
def get? (g : Graph) (id : ObjectId) (name : String) : Option Value :=
  (g.component? id).bind (·.get? name)

/-- The children of an object in the visual tree. -/
def children (g : Graph) (id : ObjectId) : List ObjectId :=
  ((g.component? id).map (·.children)).getD []

/-- The objects one level below an object. -/
def nested (g : Graph) (id : ObjectId) : List ObjectId :=
  ((g.component? id).map (·.nested)).getD []

/-- The text of an object in messages. An object that is being updated cannot be looked into. -/
def describe (g : Graph) (busy : List ObjectId) (id : ObjectId) : String :=
  let label := if id ∈ busy then "borrowed" else g.typeName id
  "<" ++ label ++ " #" ++ String.ofList (Text.hexDigits id.index) ++ ">"

/-! ## Reading after writing -/

theorem component?_alloc (g : Graph) (c : Component) (id : ObjectId) :
    (g.alloc c).2.component? id =
      if id.index = g.size then some c else g.component? id := by
  exact Array.getElem?_push

theorem component?_set (g : Graph) (id other : ObjectId) (c : Component) :
    (g.set id c).component? other =
      if id = other then (g.component? id).map fun _ => c else g.component? other := by
  have hindex : id.index = other.index ↔ id = other := by
    cases id; cases other; simp
  simp only [set, component?, Array.getElem?_setIfInBounds, hindex]
  by_cases h : id = other
  · subst h
    simp only [if_true]
    split
    · next hlt => simp [Array.getElem?_eq_getElem hlt]
    · next hlt => simp [Array.getElem?_eq_none (Nat.le_of_not_lt hlt)]
  · simp [h]

@[simp] theorem size_set (g : Graph) (id : ObjectId) (c : Component) :
    (g.set id c).size = g.size := by
  simp [set, size]

end Graph

end MarkupForms
