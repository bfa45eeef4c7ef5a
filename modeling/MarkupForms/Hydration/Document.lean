import MarkupForms.Hydration.Assembly
import MarkupForms.Hydration.CodeBehind

/-!
# Loading documents

A document is read into a graph of objects: into an existing root object or into a new one. Each
load is a pass of its own, so no resource or key outlives it. If it fails, the objects keep what was
done to them up to the fault.
-/

namespace MarkupForms.Hydration

open Markup

/-- A request to read a document: the objects there are, the catalogue, the module that declarations
without a module mean, and the object to read the root element into. -/
structure LoadRequest where
  graph : Graph
  catalog : Catalog
  localModule : Option String
  root : Option ObjectId

/-- Reads a document; the result is its root object and the graph afterwards. -/
def LoadRequest.load (request : LoadRequest) (text : String) :
    Except MarkupError ObjectId × Graph :=
  let source := text.toList
  let resolver := Resolver.ofCatalog request.catalog request.localModule
  let p := Pass.start request.graph resolver
  let (root, p) :=
    assemble (Position.ofOffset? source) p (.prolog request.root) (NodeFeed.ofText source)
  (root, p.graph)

/-- What comes of reading the markup of a type. -/
structure HydrationOutcome where
  root : Except MarkupError ObjectId
  graph : Graph
  warnings : List CodeBehindWarning

/-- Reads the markup that the module of `type` carries for it, with that module as the local one. -/
def hydrate (graph : Graph) (catalog : Catalog) (root : Option ObjectId) (type : TypeInfo) :
    HydrationOutcome :=
  match catalog.markupOf type with
  | (.error fault, warnings) => ⟨.error (.notFound fault), graph, warnings⟩
  | (.ok text, warnings) =>
    let request : LoadRequest := ⟨graph, catalog, some type.moduleName, root⟩
    let (loaded, after) := request.load text
    ⟨loaded, after, warnings⟩

end MarkupForms.Hydration
