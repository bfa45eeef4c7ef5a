import MarkupForms.CommandLine.Similarity
import MarkupForms.Decimal.Integer
import MarkupForms.Text.Split
import MarkupForms.Text.Visible

/-!
# Arguments

Arguments are files and options, in any order; behind `--` there are files only. `-v` or
`--verbosity` may be repeated. A request for help or for the version is answered at once, and so is
the first argument that is not understood.
-/

namespace MarkupForms.CommandLine

/-- What the arguments ask for. -/
structure Options where
  files : List String
  verbosity : Nat
  deriving Repr, DecidableEq

/-- Why an argument is not understood. -/
inductive UsageFault where
  | unknown (argument : String) (similar : Option String)
  | unexpectedValue (value option : String)
  deriving Repr, DecidableEq

/-- Why the arguments are not followed: an answer comes first, or one of them is not understood,
what stands before it being `seen`. -/
inductive Interruption where
  | help
  | version
  | misuse (fault : UsageFault) (seen : Options)
  deriving Repr, DecidableEq

/-! ## Texts -/

/-- The name of the program. -/
def programName : String := "kiln-gen"

/-- How the files are shown. -/
def filesUsage : String := "[FILE[,OUTPUT]]..."

/-- The usage in general. -/
def generalUsage : String :=
  "Usage: " ++ programName ++ " [OPTIONS] " ++ filesUsage

/-- How the option called `name` is shown. -/
def showOption (name : String) : String :=
  if name = "verbosity" then "--verbosity..." else "--" ++ name

/-- How the files are shown behind what was given: with one of them, more may follow. -/
def showFiles (seen : Options) : String :=
  if seen.files.isEmpty then filesUsage else "<FILE[,OUTPUT]>..."

/-- The usage that fits what was given so far, and an option that may have been meant. -/
def usageAfter (seen : Options) (meant : Option String) : String :=
  let given := if seen.verbosity = 0 then [] else ["verbosity"]
  let shown := (given ++ (meant.toList.filter (· ∉ given))).map showOption
  if shown.isEmpty && seen.files.isEmpty then generalUsage
  else "Usage: " ++ " ".intercalate (programName :: shown ++ [showFiles seen])

/-- The usage for an option that was given a value. Files count as given only when an option stood
behind them; then the files and the verbosity are shown as one choice, and the option by itself if
it is not in that choice. -/
def usageWithValue (seen : Options) (option : String) : String :=
  let shown :=
    if seen.verbosity = 0 then [showOption option, filesUsage]
    else
      let choice := "<FILE[,OUTPUT]|" ++ showOption "verbosity" ++ ">"
      if option = "verbosity" then [choice] else [showOption option, choice]
  "Usage: " ++ " ".intercalate (programName :: shown)

/-- The help text. -/
def helpText : String :=
  "Generate typed element accessors for kiln markup documents\n\n" ++ generalUsage ++ "\n\n" ++
    "Arguments:\n" ++
    "  [FILE[,OUTPUT]]...  Markup file, optionally followed by \x60,OUTPUT\x60 " ++
    "(default \x60<file name>.g.rs\x60)\n\n" ++
    "Options:\n" ++
    "  -v, --verbosity...  Verbosity level (can be repeated)\n" ++
    "  -h, --help          Print help\n" ++
    "  -V, --version       Print version\n"

/-- The version text. -/
def versionText : String :=
  programName ++ " 0.1.0\n"

/-- Whether an argument is a long option. -/
def isLong (argument : String) : Bool :=
  (Text.strip? ['-', '-'] argument.toList).isSome

/-- The complaint about an argument, of which only what is visible is shown. -/
def UsageFault.message (fault : UsageFault) (seen : Options) : String :=
  let (complaint, usage) :=
    match fault with
    | .unknown argument (some similar) =>
      ("unexpected argument '" ++ Text.visible argument ++
        "' found\n\n  tip: a similar argument exists: '--" ++ similar ++ "'",
        usageAfter seen (some similar))
    | .unknown argument none =>
      let shown := Text.visible argument
      ("unexpected argument '" ++ shown ++ "' found\n\n  tip: to pass '" ++ shown ++
        "' as a value, use '-- " ++ shown ++ "'",
        if isLong argument then usageAfter seen none else generalUsage)
    | .unexpectedValue value option =>
      ("unexpected value '" ++ Text.visible value ++ "' for '" ++ showOption option ++
        "' found; no more were expected", usageWithValue seen option)
  "error: " ++ complaint ++ "\n\n" ++ usage ++ "\n\nFor more information, try '--help'.\n"

/-! ## Reading -/

/-- The options with one more file. -/
def Options.addFile (options : Options) (file : String) : Options :=
  { options with files := options.files ++ [file] }

/-- The options with a higher verbosity. -/
def Options.raise (options : Options) : Options :=
  { options with verbosity := options.verbosity + 1 }

/-- Follows a long option, `name` being what stands behind its hyphens. -/
def readLong (seen : Options) (name : String) (value : Option String) :
    Except Interruption Options :=
  if name = "verbosity" ∨ name = "help" ∨ name = "version" then
    match value with
    | some value => .error (.misuse (.unexpectedValue value name) seen)
    | none =>
      if name = "verbosity" then .ok seen.raise
      else if name = "help" then .error .help
      else .error .version
  else
    let similar := closest? name ["verbosity", "help", "version"]
    .error (.misuse (.unknown ("--" ++ name) similar) seen)

/-- Follows the letters of a short option from left to right. -/
def readShort (seen : Options) : List Char → Except Interruption Options
  | [] => .ok seen
  | 'v' :: letters => readShort seen.raise letters
  | 'h' :: _ => .error .help
  | 'V' :: _ => .error .version
  | c :: _ => .error (.misuse (.unknown (String.ofList ['-', c]) none) seen)

/-- Follows one argument in front of `--`. -/
def readArgument (seen : Options) (argument : String) : Except Interruption Options :=
  match argument.toList with
  | '-' :: '-' :: long =>
    match Text.splitAt? '=' long with
    | some (name, value) => readLong seen (String.ofList name) (some (String.ofList value))
    | none => readLong seen (String.ofList long) none
  | '-' :: c :: letters => readShort seen (c :: letters)
  | _ => .ok (seen.addFile argument)

/-- Follows the arguments from left to right. -/
def readArguments (seen : Options) : List String → Except Interruption Options
  | [] => .ok seen
  | "--" :: files => .ok { seen with files := seen.files ++ files }
  | argument :: arguments =>
    match readArgument seen argument with
    | .ok next => readArguments next arguments
    | .error interruption => .error interruption

/-- What the arguments ask for. -/
def Options.ofArguments (arguments : List String) : Except Interruption Options :=
  readArguments ⟨[], 0⟩ arguments

end MarkupForms.CommandLine
