import MarkupForms.Hydration.Document
import MarkupForms.Objects.Context
import MarkupForms.Objects.Outline
import MarkupForms.Showcase.Types

/-!
# The showcase at work

The page is read from its markup, its data are set as the context, and its outline and some of its
values are written out.
-/

namespace MarkupForms.Showcase

open Hydration

/-- A row of the page's data. -/
def dataRow (name title : String) : BindingContext :=
  .ofList [("Subtitle", .text name), ("Title", .text title)]

/-- The page's data: a greeting, a name and three rows. -/
def context : BindingContext :=
  .ofList [
    ("LabelBinding", .text "Binding works"),
    ("Name", .text "kiln"),
    ("Items", .list [dataRow "Xander" "Monkey", dataRow "John" "Boss", dataRow "Fred" "Pleb"])]

/-- The text of a value that may be absent. -/
def printOption (g : Graph) : Option Value → String
  | some value => "Some(" ++ value.print (g.describe []) ++ ")"
  | none => "None"

/-- The object below the page with the given id and implementation. -/
def element (g : Graph) (page : ObjectId) (id : String) (wanted : Implementation) :
    Except MarkupError ObjectId :=
  (g.findByIdAs page id wanted).mapError fun fault => .notFound (.object fault)

/-- The line about one row. -/
def rowLine (g : Graph) (row : ObjectId) : String :=
  "Row      -> " ++ printOption g (g.get? row "Text") ++ " / " ++
    printOption g (g.get? row "Detail") ++ "\n"

/-- What the showcase writes. -/
def output : Except MarkupError String := do
  let (page, g) := Graph.empty.alloc { newCustomPage with type := customPage }
  let hydrated := hydrate g catalog (some page) customPage
  let page ← hydrated.root
  let greeting ← element hydrated.graph page "Greeting" .label
  let shout ← element hydrated.graph page "Shout" .label
  let _ ← element hydrated.graph page "NameEntry" .entry
  let items ← element hydrated.graph page "Items" .listView
  let (g, _) := hydrated.graph.setContext page context
  let rows := ((g.component? items).bind (·.rows)).getD []
  return g.outline page ++ "\n" ++
    "Greeting -> " ++ printOption g (g.get? greeting "Text") ++ "\n" ++
    "Shout    -> " ++ printOption g (g.get? shout "Text") ++ "\n" ++
    String.join (rows.map (rowLine g))

end MarkupForms.Showcase
