import MarkupForms.Types.Basic

/-!
# The catalogue of types

Types are registered in modules. A module is accepted as a whole or not at all: its name must be
new, every type in it must declare that module, no two of its types may share namespace and name,
and no property name may occur twice along the ancestry of one of its types. So a name always leads
to one type, and a property name to one property.
-/

namespace MarkupForms

/-- A text that a module carries with it, such as the markup of one of its types. -/
structure Resource where
  name : String
  text : String
  deriving Repr, DecidableEq

/-- The types and texts that are registered together. -/
structure TypeModule where
  name : String
  types : List TypeInfo
  resources : List Resource

/-- The first type of the module with this namespace and name. -/
def TypeModule.find (m : TypeModule) (namespaceName name : String) : Option TypeInfo :=
  m.types.find? fun type => type.namespaceName == namespaceName && type.name == name

/-- Why a module was refused. -/
inductive CatalogError where
  | duplicateModule (name : String)
  | duplicateType (moduleName namespaceName name : String)
  | moduleMismatch (typeName declared moduleName : String)
  | duplicateProperty (typeName property : String)
  deriving Repr, DecidableEq

/-- The text of a refusal. -/
def CatalogError.message : CatalogError → String
  | .duplicateModule name => "module `" ++ name ++ "` is already registered"
  | .duplicateType moduleName namespaceName name =>
    "type `" ++ namespaceName ++ "." ++ name ++ "` is registered twice in module `" ++ moduleName ++
      "`"
  | .moduleMismatch typeName declared moduleName =>
    "type `" ++ typeName ++ "` declares module `" ++ declared ++ "` but was registered in `" ++
      moduleName ++ "`"
  | .duplicateProperty typeName property =>
    "property `" ++ property ++ "` is declared more than once along the hierarchy of `" ++
      typeName ++ "`"

/-! ## What is checked -/

/-- The first element that equals an earlier one. -/
def firstRepeated? {α : Type} [DecidableEq α] : (seen rest : List α) → Option α
  | _, [] => none
  | seen, x :: rest => if x ∈ seen then some x else firstRepeated? (x :: seen) rest

/-- The complaint about one type of the module `moduleName`, after types with the given namespaces
and names. -/
def checkType (moduleName : String) (seen : List (String × String)) (type : TypeInfo) :
    Option CatalogError :=
  if type.moduleName ≠ moduleName then
    some (.moduleMismatch type.name type.moduleName moduleName)
  else if (type.namespaceName, type.name) ∈ seen then
    some (.duplicateType moduleName type.namespaceName type.name)
  else
    (firstRepeated? [] (type.allProperties.map (·.name))).map (.duplicateProperty type.name)

/-- The first complaint about the types of a module. -/
def checkTypes (moduleName : String) : (seen : List (String × String)) → List TypeInfo →
    Option CatalogError
  | _, [] => none
  | seen, type :: types =>
    match checkType moduleName seen type with
    | some error => some error
    | none => checkTypes moduleName ((type.namespaceName, type.name) :: seen) types

/-! ## Registration -/

/-- The registered modules in order of registration. -/
structure Catalog where
  modules : List TypeModule

namespace Catalog

/-- The catalogue without modules. -/
def empty : Catalog := ⟨[]⟩

/-- The module called `name`. -/
def module? (catalog : Catalog) (name : String) : Option TypeModule :=
  catalog.modules.find? (·.name == name)

/-- The type with this module, namespace and name. -/
def lookup (catalog : Catalog) (moduleName namespaceName name : String) : Option TypeInfo :=
  (catalog.module? moduleName).bind (·.find namespaceName name)

/-- The catalogue with one more module. -/
def register (catalog : Catalog) (m : TypeModule) : Except CatalogError Catalog :=
  if (catalog.module? m.name).isSome then .error (.duplicateModule m.name)
  else
    match checkTypes m.name [] m.types with
    | some error => .error error
    | none => .ok ⟨catalog.modules ++ [m]⟩

/-- The catalogue with the modules registered one after the other, up to the first refusal. -/
def registerAll (catalog : Catalog) : List TypeModule → Except CatalogError Catalog
  | [] => .ok catalog
  | m :: ms =>
    match catalog.register m with
    | .ok next => next.registerAll ms
    | .error error => .error error

end Catalog

/-- There is no repeated element exactly when the list has no duplicates. -/
theorem firstRepeated?_eq_none_iff {α : Type} [DecidableEq α] (seen rest : List α) :
    firstRepeated? seen rest = none ↔ rest.Nodup ∧ ∀ x ∈ rest, x ∉ seen := by
  induction rest generalizing seen with
  | nil => simp [firstRepeated?]
  | cons x rest ih =>
    by_cases hx : x ∈ seen
    · simp [firstRepeated?, hx]
    · simp only [firstRepeated?, hx, if_false, ih, List.nodup_cons, List.mem_cons,
        forall_eq_or_imp, not_false_eq_true, true_and]
      constructor
      · rintro ⟨hnd, hall⟩
        refine ⟨⟨fun hmem => (hall x hmem) (Or.inl rfl), hnd⟩, fun y hy hys => ?_⟩
        exact hall y hy (Or.inr hys)
      · rintro ⟨⟨hxr, hnd⟩, hall⟩
        refine ⟨hnd, fun y hy => ?_⟩
        rintro (rfl | hys)
        · exact hxr hy
        · exact hall y hy hys

end MarkupForms
