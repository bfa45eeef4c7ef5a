import MarkupForms.Forms.Framework
import MarkupForms.Hydration.Fault

/-!
# From element names to types

An element in a framework namespace names a type of the framework module. Any other namespace has to
declare a namespace of types and the module that holds it; a declaration without a module means the
local module. A resolver keeps the declarations it has read, which saves work and changes no answer.
-/

namespace MarkupForms.Hydration

open Markup

/-- What leads from names to types: the catalogue, the module that declarations without one mean,
and the declarations read so far. -/
structure Resolver where
  catalog : Catalog
  localModule : Option String
  declarations : OrderedMap Declaration

namespace Resolver

/-- A resolver that has read no declaration. -/
def ofCatalog (catalog : Catalog) (localModule : Option String) : Resolver :=
  ⟨catalog, localModule, .empty⟩

/-- The declaration that a namespace spells. -/
def declaration (r : Resolver) (uri : String) : Except DeclarationFault Declaration × Resolver :=
  match r.declarations.get? uri with
  | some decl => (.ok decl, r)
  | none =>
    match Declaration.parse uri with
    | .error fault => (.error fault, r)
    | .ok decl => (.ok decl, { r with declarations := r.declarations.insert uri decl })

/-- The part of an element's name behind its last colon. -/
def baseName (element : String) : String :=
  match Text.splitAtLast? ':' element.toList with
  | some (_, after) => String.ofList after
  | none => element

/-- The type called `name` that a declaration leads to; `uri` is its text. -/
def findDeclared (catalog : Catalog) (localModule : Option String) (uri name : String)
    (decl : Declaration) : Except MarkupError TypeInfo :=
  match decl.namespaceName, decl.moduleName.or localModule with
  | none, _ => .error (.declaration uri .namesNoNamespace)
  | some _, none => .error (.resolution uri name .noModuleNamed)
  | some namespaceName, some moduleName =>
    match catalog.module? moduleName with
    | none => .error (.resolution uri name (.moduleNotLoaded moduleName))
    | some m =>
      match m.find namespaceName name with
      | none => .error (.resolution uri name (.noTypeIn moduleName))
      | some type => .ok type

/-- The type that an element names. -/
def resolve (r : Resolver) (uri element : String) : Except MarkupError TypeInfo × Resolver :=
  let name := baseName element
  if isFramework uri then
    match r.catalog.lookup Forms.moduleName Forms.moduleName name with
    | some type => (.ok type, r)
    | none => (.error (.resolution uri name .noFrameworkType), r)
  else
    match r.declaration uri with
    | (.error fault, next) => (.error (.declaration uri fault), next)
    | (.ok decl, next) => (findDeclared r.catalog r.localModule uri name decl, next)

end Resolver

/-- A new object of a type, which must not be abstract. -/
def construct (g : Graph) (type : TypeInfo) : Except MarkupError (ObjectId × Graph) :=
  match g.construct type with
  | some made => .ok made
  | none => .error (.resolution type.namespaceName type.name .notConstructible)

end MarkupForms.Hydration
