import MarkupForms.Logging.Filter

/-!
# Where the filter comes from

An explicit filter wins; then the environment is asked, first for `KILN_LOG` and then for
`RUST_LOG`; otherwise the base level holds, with the program's own parts raised by the verbosity.
-/

namespace MarkupForms.Logging

/-- How records are to be chosen. -/
structure Settings where
  filter : Option String
  base : Threshold
  verbosity : Nat
  timestamps : Bool
  deriving Repr, DecidableEq

/-- The variables of the environment that may hold a filter, in order. -/
def filterVariables : List String := ["KILN_LOG", "RUST_LOG"]

/-- The parts of the program whose records the verbosity brings out. -/
def ownTargets : List String := ["kiln_model", "kiln_xaml", "kiln_gen", "kiln_sample"]

namespace Settings

/-- Records up to `info`, without times. -/
def default : Settings := ⟨none, some .info, 0, false⟩

/-- The level that a verbosity raises the program's own parts to. -/
def raisedLevel? : (verbosity : Nat) → Option Level
  | 0 => none
  | 1 => some .debug
  | _ => some .trace

/-- The filter's text without an explicit filter and without the environment. -/
def ownDirectives (settings : Settings) : String :=
  match raisedLevel? settings.verbosity with
  | none => settings.base.name
  | some level =>
    ",".intercalate (settings.base.name :: ownTargets.map fun target => target ++ "=" ++ level.name)

/-- The filter's text; `env` looks a variable up. -/
def directives (settings : Settings) (env : String → Option String) : String :=
  match settings.filter with
  | some filter => filter
  | none => (filterVariables.findSome? env).getD settings.ownDirectives

end Settings

end MarkupForms.Logging
