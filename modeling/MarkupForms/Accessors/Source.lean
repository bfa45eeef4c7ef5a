import MarkupForms.Accessors.Scan

/-!
# Source text for accessors

The accessors of a document are written as a structure with one field per named element, and a
function that looks all of them up below the root.
-/

namespace MarkupForms.Accessors

/-- The line that declares a field. -/
def Field.declaration (field : Field) : String :=
  "    pub " ++ field.name ++ ": ::kiln_model::Handle<" ++ field.typePath ++ ">,"

/-- The line that looks a field's element up. -/
def Field.lookup (field : Field) : String :=
  "            " ++ field.name ++ ": ::kiln_xaml::find_by_id_as(root, " ++
    Text.quoteText field.id ++ ")?,"

/-- The head of the function that looks the elements up. -/
def initializerHead : String :=
  "    pub fn initialize_component(root: &::kiln_model::ObjectRef) -> " ++
    "::std::result::Result<Self, ::kiln_xaml::HydrateError> \x7b"

/-- The lines of the source text. -/
def AccessorSet.lines (set : AccessorSet) : List String :=
  [ "// Generated by kiln-gen. Do not edit.",
    "",
    "/// Named elements of `" ++ set.fullClass ++ "`.",
    "#[derive(Debug, Clone)]",
    "pub struct " ++ set.structName ++ " \x7b" ] ++
  set.fields.map Field.declaration ++
  [ "\x7d",
    "",
    "impl " ++ set.structName ++ " \x7b",
    "    /// Look up every named element below a hydrated root.",
    initializerHead ] ++
  (if set.fields.isEmpty then ["        let _ = root;"] else []) ++
  ["        Ok(Self \x7b"] ++
  set.fields.map Field.lookup ++
  [ "        \x7d)",
    "    \x7d",
    "\x7d" ]

/-- The source text of a set of accessors. -/
def AccessorSet.source (set : AccessorSet) : String :=
  String.join (set.lines.map (· ++ "\n"))

/-- The source text for a document, empty if its root declares no class. -/
def generate (text : String) : Scanned String :=
  let (scanned, notes) := scan text
  (scanned.map fun set => (set.map AccessorSet.source).getD "", notes)

end MarkupForms.Accessors
