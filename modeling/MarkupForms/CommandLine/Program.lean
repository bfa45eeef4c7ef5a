import MarkupForms.Accessors.Source
import MarkupForms.CommandLine.Arguments
import MarkupForms.CommandLine.Files
import MarkupForms.CommandLine.Task
import MarkupForms.Logging.Settings

/-!
# The program

Each file argument is a task: its markup is read, accessors are generated, and their source is
written. A task that fails is reported and the others go on; at the end the number of failed tasks
decides the exit code. A task that breaks off takes the program with it: no later task is run, and
the exit code is one of its own. Everything is written in terms of an access to files, so the
program is the same on a disk and on files in memory.
-/

namespace MarkupForms.CommandLine

open Accessors Logging

/-! ## Records -/

/-- The record of a scan note. -/
def scanRecord : ScanNote → Record
  | .asideSkipped => ⟨.trace, "kiln_xaml::reader", "skipping non-content node"⟩
  | .noClass element =>
    ⟨.debug, "kiln_gen::stub", "<" ++ element ++ "> declares no x:Class; nothing to generate"⟩
  | .repeatedId id typePath =>
    ⟨.warn, "kiln_gen::stub",
      "Id `" ++ id ++ "` appears more than once; replacing the earlier `" ++ typePath ++ "`"⟩

/-- The record that tells the filter in use. -/
def startRecord (directives : String) : Record :=
  ⟨.debug, "kiln_model::logging::init", "kiln logging initialized (" ++ directives ++ ")"⟩

/-! ## One task -/

/-- Why a task failed. -/
inductive TaskError where
  | reading (path : String) (error : FileError)
  | generating (path : String) (error : ScanError)
  | writing (path : String) (error : FileError)
  deriving Repr, DecidableEq

/-- The text of a failure. -/
def TaskError.message : TaskError → String
  | .reading path error => "reading " ++ path ++ ": " ++ error.message
  | .generating path error => "generating from " ++ path ++ ": " ++ error.message
  | .writing path error => "writing " ++ path ++ ": " ++ error.message

/-- The record of a task that failed. -/
def failureRecord (error : TaskError) : Record :=
  ⟨.error, "kiln_gen", error.message⟩

/-- The record of a task that succeeded and wrote `source`. -/
def successRecord (task : Task) (source : String) : Record :=
  if source.isEmpty then
    ⟨.info, "kiln_gen", task.input ++ ": no x:Class, wrote empty " ++ task.output⟩
  else ⟨.info, "kiln_gen", task.input ++ " -> " ++ task.output⟩

/-- How a task ends. -/
inductive TaskEnding where
  | succeeded
  | failed
  | aborted
  deriving Repr, DecidableEq

/-- What comes of a task: how it ends, and its records. -/
structure TaskReport where
  ending : TaskEnding
  records : List Record
  deriving Repr, DecidableEq

/-- Runs a task. -/
def Task.run {m : Type → Type} [Monad m] (files : FileAccess m) (task : Task) : m TaskReport := do
  match ← files.read task.input with
  | .error error => return ⟨.failed, [failureRecord (.reading task.input error)]⟩
  | .ok text =>
    let (generated, notes) := generate text
    let records := notes.map scanRecord
    match generated with
    | .error (.markup .aborted) => return ⟨.aborted, records⟩
    | .error error =>
      return ⟨.failed, records ++ [failureRecord (.generating task.input error)]⟩
    | .ok source =>
      match ← files.write task.output source with
      | .error error => return ⟨.failed, records ++ [failureRecord (.writing task.output error)]⟩
      | .ok () => return ⟨.succeeded, records ++ [successRecord task source]⟩

/-- Runs tasks from first to last, or up to the first that breaks off. -/
def runTasks {m : Type → Type} [Monad m] (files : FileAccess m) : List Task → m (List TaskReport)
  | [] => return []
  | task :: tasks => do
    let report ← task.run files
    if report.ending = .aborted then return [report]
    return report :: (← runTasks files tasks)

/-! ## All of it -/

/-- What a run of the program leaves behind, files aside. What is said of the place in the program
where a run breaks off is no part of it. -/
structure Report where
  code : Nat
  stdout : String
  stderr : String
  deriving Repr, DecidableEq

/-- The lines of the records that pass a filter. -/
def writeRecords (filter : Filter) (records : List Record) : String :=
  String.join ((records.filter filter.passes).map Record.line)

/-- The warnings about a filter's text. -/
def writeFaults (faults : List FilterFault) : String :=
  String.join (faults.map fun fault => "warning: " ++ fault.message ++ ", ignoring it\n")

/-- The exit code of a run that breaks off. -/
def abortedCode : Nat := 101

/-- The last line of a run in which tasks failed. -/
def failureLine (failed total : Nat) : String :=
  "Error: " ++ Decimal.ofNat failed ++ " of " ++ Decimal.ofNat total ++ " file(s) failed\n"

/-- Runs the program on its options. Without a file it shows the help text. -/
def Options.run {m : Type → Type} [Monad m] (files : FileAccess m) (env : String → Option String)
    (options : Options) : m Report := do
  let directives := { Settings.default with verbosity := options.verbosity }.directives env
  let (filter, faults) := Filter.read directives
  let opening := writeFaults faults ++ writeRecords filter [startRecord directives]
  if options.files.isEmpty then return ⟨0, helpText, opening⟩
  let reports ← runTasks files (options.files.map Task.parse)
  let written := opening ++ writeRecords filter (reports.flatMap (·.records))
  if reports.any (·.ending = .aborted) then return ⟨abortedCode, "", written⟩
  let failed := reports.countP (·.ending = .failed)
  if failed = 0 then return ⟨0, "", written⟩
  return ⟨1, "", written ++ failureLine failed options.files.length⟩

/-- Runs the program on its arguments. -/
def run {m : Type → Type} [Monad m] (files : FileAccess m) (env : String → Option String)
    (arguments : List String) : m Report :=
  match Options.ofArguments arguments with
  | .ok options => options.run files env
  | .error .help => return ⟨0, helpText, ""⟩
  | .error .version => return ⟨0, versionText, ""⟩
  | .error (.misuse fault seen) => return ⟨2, "", fault.message seen⟩

end MarkupForms.CommandLine
