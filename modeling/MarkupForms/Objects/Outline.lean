import MarkupForms.Objects.Graph
import MarkupForms.Value.Print

/-!
# Outlines of the visual tree

An outline has one line per object, indented by two spaces per level: the type's name, the id behind
a hash sign, the stored values other than objects, and the bound paths.
-/

namespace MarkupForms

/-- The line of one object. -/
def Graph.outlineLine (g : Graph) (depth : Nat) (id : ObjectId) : String :=
  let idPart :=
    match (g.get? id "Id").bind Value.asText? with
    | some text => " #" ++ text
    | none => ""
  let storeParts :=
    match (g.component? id).bind (·.store) with
    | none => ""
    | some store =>
      let values := store.values.toList.filterMap fun (name, value) =>
        if value.asObject?.isSome then none
        else some (" " ++ name ++ "=" ++ value.print (g.describe []))
      let paths := store.bindings.toList.map fun (name, bound) =>
        " " ++ name ++ "<-\x7b" ++ bound.binding.path ++ "\x7d"
      String.join (values ++ paths)
  String.ofList (List.replicate (2 * depth) ' ') ++ g.typeName id ++ idPart ++ storeParts ++ "\n"

/-- The lines of an object and of everything below it in the visual tree, of at most `bound`
levels. -/
def Graph.outlineLevels (g : Graph) : Nat → Nat → ObjectId → String
  | 0, _, _ => ""
  | bound + 1, depth, id =>
    g.outlineLine depth id ++
      String.join ((g.children id).map (g.outlineLevels bound (depth + 1)))

/-- The outline of the visual tree at `root`. A tree is no deeper than its number of objects. -/
def Graph.outline (g : Graph) (root : ObjectId) : String :=
  g.outlineLevels (g.size + 1) 0 root

end MarkupForms
