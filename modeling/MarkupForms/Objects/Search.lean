import MarkupForms.Objects.Graph

/-!
# Finding objects by their id

The search goes level by level: first everything nested in the root, then everything nested in that,
and so on, each level in the order of the level before it. The root itself is never found. A graph
of `n` objects has no shortest path longer than `n`, so `n` levels are enough.
-/

namespace MarkupForms

/-- Whether the property `Id` of an object holds the text `id`. -/
def Graph.hasId (g : Graph) (id : String) (object : ObjectId) : Bool :=
  ((g.get? object "Id").bind Value.asText?) == some id

/-- The objects one level below those of `level`, in order. -/
def Graph.nextLevel (g : Graph) (level : List ObjectId) : List ObjectId :=
  level.flatMap g.nested

/-- The first object with the id on `level` or, of at most `bound` levels, on the first level below
it that has one. -/
def Graph.searchLevels (g : Graph) (id : String) : Nat → List ObjectId → Option ObjectId
  | 0, _ => none
  | bound + 1, level =>
    match level.find? (g.hasId id) with
    | some object => some object
    | none => if level.isEmpty then none else g.searchLevels id bound (g.nextLevel level)

/-- The object below `root` with the id that comes first, level by level. -/
def Graph.findById (g : Graph) (root : ObjectId) (id : String) : Option ObjectId :=
  g.searchLevels id (g.size + 1) (g.nested root)

/-- Why no object of the wanted implementation was found. -/
inductive SearchError where
  | noElement (id : String)
  | otherType (id found wanted : String)
  deriving Repr, DecidableEq

/-- The text of a failed search. -/
def SearchError.message : SearchError → String
  | .noElement id => "no element with Id `" ++ id ++ "`"
  | .otherType id found wanted =>
    "element `" ++ id ++ "` is a `" ++ found ++ "`, not a `" ++ wanted ++ "`"

/-- The object below `root` with the id, which has to be implemented by `wanted`. -/
def Graph.findByIdAs (g : Graph) (root : ObjectId) (id : String) (wanted : Implementation) :
    Except SearchError ObjectId :=
  match g.findById root id with
  | none => .error (.noElement id)
  | some object =>
    if (g.component? object).map (·.implementation) = some wanted then .ok object
    else .error (.otherType id (g.typeName object) wanted.name)

end MarkupForms
