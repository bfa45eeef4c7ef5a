import Mathlib.Data.List.TakeWhile
import Mathlib.Logic.Function.Basic
import Mathlib.Tactic.Push
import MarkupForms.CommandLine.Program
import MarkupForms.Proofs.Accessors.Tags

/-!
# Batches

Files in memory are a map from paths to contents in which every write succeeds. A task is then worth
what its input alone says: its product, if the input is there and accessors can be generated from
it. When no output is written twice or read, a batch comes to the products of its tasks, each in its
output, and to nothing else, in whatever order the tasks are named.

A task on whose input the generator breaks off is the last one: what is named behind it is not
written (`not_every_task_run`). Only a text behind a byte order mark does this.
-/

namespace MarkupForms.CommandLine

open Accessors Logging

/-! ## Files in memory -/

/-- The content at each path, where there is a file. -/
abbrev FileMap : Type :=
  String → Option String

/-- Access to files in memory. Only reading can fail, where there is no file. -/
def FileMap.access : FileAccess (StateM FileMap) where
  read path := do
    match (← get) path with
    | some content => return .ok content
    | none => return .error .missing
  write path content := do
    modify fun files => Function.update files path (some content)
    return .ok ()

/-! ## One task -/

/-- What a task writes: the source generated from its input. There is none if there is no input, or
if no source can be generated from it. -/
def Task.product? (files : FileMap) (task : Task) : Option String :=
  match files task.input with
  | some text => (generate text).1.toOption
  | none => none

/-- How a task ends: it succeeds exactly if it has a product. -/
def Task.ending (files : FileMap) (task : Task) : TaskEnding :=
  match files task.input with
  | none => .failed
  | some text =>
    match (generate text).1 with
    | .ok _ => .succeeded
    | .error (.markup .aborted) => .aborted
    | .error _ => .failed

theorem Task.ending_eq_succeeded_iff {files : FileMap} {task : Task} :
    task.ending files = .succeeded ↔ ∃ source, task.product? files = some source := by
  unfold Task.ending Task.product?
  cases files task.input with
  | none => exact ⟨nofun, nofun⟩
  | some text =>
    dsimp only
    split
    · next source made => exact ⟨fun _ => ⟨source, by rw [made]; rfl⟩, fun _ => rfl⟩
    · next broken => rw [broken]; exact ⟨nofun, nofun⟩
    · next error refused => rw [refused]; exact ⟨nofun, nofun⟩

/-- **Only behind a byte order mark does a task break off.** -/
theorem Task.marked_of_aborted {files : FileMap} {task : Task}
    (broken : task.ending files = .aborted) :
    ∃ text, files task.input = some text ∧ text.toList.head? = some '\ufeff' := by
  unfold Task.ending at broken
  cases found : files task.input with
  | none =>
    rw [found] at broken
    cases broken
  | some text =>
    rw [found] at broken
    dsimp only at broken
    split at broken
    · cases broken
    · next made =>
      refine ⟨text, rfl, marked_of_scanBreaksOff ?_⟩
      unfold generate at made
      unfold ScanBreaksOff
      generalize scan text = scanned at made ⊢
      obtain ⟨error | set, notes⟩ := scanned
      · cases made
        rfl
      · cases made
    · cases broken

/-- The files after a task that found `files`. -/
def Task.leave (files : FileMap) (task : Task) : FileMap :=
  match task.product? files with
  | some source => Function.update files task.output (some source)
  | none => files

theorem Task.leave_output {files : FileMap} {task : Task} {source : String}
    (made : task.product? files = some source) :
    task.leave files task.output = some source := by
  simp [Task.leave, made]

/-- A task that fails, or whose output is elsewhere, leaves a path as it is. -/
theorem Task.leave_of_elsewhere {files : FileMap} {task : Task} {path : String}
    (elsewhere : task.output = path → task.product? files = none) :
    task.leave files path = files path := by
  unfold Task.leave
  cases made : task.product? files with
  | none => rfl
  | some source =>
    have other : path ≠ task.output := by
      intro same
      simp [elsewhere same.symm] at made
    exact Function.update_of_ne other _ _

/-- How a task ends depends on its input only. -/
theorem Task.ending_congr {files others : FileMap} {task : Task}
    (same : files task.input = others task.input) : task.ending files = task.ending others := by
  simp only [Task.ending, same]

/-- What a task writes depends on its input only. -/
theorem Task.product?_congr {files others : FileMap} {task : Task}
    (same : files task.input = others task.input) :
    task.product? files = task.product? others := by
  simp only [Task.product?, same]

theorem FileMap.run_read (files : FileMap) (path : String) :
    (FileMap.access.read path).run files =
      (match files path with
        | some content => .ok content
        | none => .error .missing, files) := by
  unfold FileMap.access
  cases found : files path with
  | none => simp [found]; rfl
  | some content => simp [found]; rfl

/-- A program goes on from where its first part ends. -/
theorem run_bind_of_run {α β σ : Type} {first : StateM σ α} {rest : α → StateM σ β}
    {before after : σ} {result : α} (ran : first.run before = (result, after)) :
    (first >>= rest).run before = (rest result).run after := by
  rw [StateT.run_bind, ran]
  rfl

/-- Step: a task ends as its input says, and leaves its product in its output. -/
theorem Task.run_access (files : FileMap) (task : Task) :
    ∃ records, (task.run FileMap.access).run files =
      (⟨task.ending files, records⟩, task.leave files) := by
  unfold Task.run Task.leave Task.ending Task.product?
  rw [run_bind_of_run (FileMap.run_read files task.input)]
  cases found : files task.input with
  | none => exact ⟨_, rfl⟩
  | some text =>
    simp only
    obtain ⟨generated, notes⟩ := generate text
    cases generated with
    | ok source => exact ⟨_, rfl⟩
    | error error =>
      cases error with
      | markup error => cases error <;> exact ⟨_, rfl⟩
      | _ => exact ⟨_, rfl⟩

/-! ## A batch -/

/-- The tasks do not disturb each other: no two have the same output, and no output is an input. -/
structure Undisturbed (tasks : List Task) : Prop where
  outputs : (tasks.map Task.output).Nodup
  inputs : ∀ writer ∈ tasks, ∀ reader ∈ tasks, writer.output ≠ reader.input

namespace Undisturbed

variable {task : Task} {tasks others : List Task} {files : FileMap}

theorem tail (undisturbed : Undisturbed (task :: tasks)) : Undisturbed tasks where
  outputs := (List.nodup_cons.mp undisturbed.outputs).2
  inputs writer written reader read :=
    undisturbed.inputs writer (.tail _ written) reader (.tail _ read)

theorem perm (undisturbed : Undisturbed tasks) (same : tasks.Perm others) : Undisturbed others where
  outputs := (same.map Task.output).nodup undisturbed.outputs
  inputs writer written reader read :=
    undisturbed.inputs writer (same.mem_iff.mpr written) reader (same.mem_iff.mpr read)

/-- The first task leaves alone what the others write. -/
theorem output_ne (undisturbed : Undisturbed (task :: tasks)) {later : Task}
    (there : later ∈ tasks) :
    task.output ≠ later.output := by
  intro same
  have fresh := (List.nodup_cons.mp undisturbed.outputs).1
  exact fresh (same ▸ List.mem_map_of_mem there)

/-- The first task leaves alone what the others read. -/
theorem leave_input (undisturbed : Undisturbed (task :: tasks)) {later : Task}
    (there : later ∈ tasks) :
    task.leave files later.input = files later.input := by
  apply Task.leave_of_elsewhere
  intro same
  exact absurd same (undisturbed.inputs task (.head _) later (.tail _ there))

end Undisturbed

/-- Files that were `files` before a batch: the products are in their outputs, and everything else,
the outputs of failed tasks included, is as before. -/
structure Produced (files : FileMap) (tasks : List Task) (after : FileMap) : Prop where
  written : ∀ task ∈ tasks, ∀ source, task.product? files = some source →
    after task.output = some source
  kept : ∀ path, (∀ task ∈ tasks, task.output = path → task.product? files = none) →
    after path = files path

/-- What a batch leaves is determined by its tasks, whatever their order. -/
theorem Produced.unique {files after later : FileMap} {tasks others : List Task}
    (first : Produced files tasks after) (second : Produced files others later)
    (same : tasks.Perm others) : later = after := by
  funext path
  by_cases idle : ∀ task ∈ tasks, task.output = path → task.product? files = none
  · have still : ∀ task ∈ others, task.output = path → task.product? files = none :=
      fun task there => idle task (same.mem_iff.mpr there)
    rw [first.kept path idle, second.kept path still]
  · push Not at idle
    obtain ⟨task, there, rfl, busy⟩ := idle
    obtain ⟨source, made⟩ := Option.ne_none_iff_exists'.mp busy
    rw [first.written task there source made,
      second.written task (same.mem_iff.mp there) source made]

/-- The tasks of a batch up to the first that breaks off, without it. -/
def finished (files : FileMap) (tasks : List Task) : List Task :=
  tasks.takeWhile fun task => task.ending files ≠ .aborted

theorem finished_cons (files : FileMap) (task : Task) (tasks : List Task) :
    finished files (task :: tasks) =
      if task.ending files = .aborted then [] else task :: finished files tasks := by
  unfold finished
  rw [List.takeWhile_cons]
  by_cases broken : task.ending files = .aborted
  · simp [broken]
  · simp [broken]

theorem finished_congr {files others : FileMap} {tasks : List Task}
    (same : ∀ task ∈ tasks, task.ending files = task.ending others) :
    finished files tasks = finished others tasks := by
  induction tasks with
  | nil => rfl
  | cons task tasks ih =>
    rw [finished_cons, finished_cons, same task (.head _),
      ih fun later there => same later (.tail _ there)]

theorem mem_of_mem_finished {files : FileMap} {tasks : List Task} {task : Task}
    (there : task ∈ finished files tasks) : task ∈ tasks :=
  (List.takeWhile_sublist _).subset there

/-- A batch of which no task breaks off is finished. -/
theorem finished_eq_self {files : FileMap} {tasks : List Task}
    (unbroken : ∀ task ∈ tasks, task.ending files ≠ .aborted) : finished files tasks = tasks := by
  rw [finished, List.takeWhile_eq_self_iff]
  exact fun task there => decide_eq_true (unbroken task there)

/-- How the tasks that are run end: those that are finished, and the one that breaks off. -/
def endings (files : FileMap) (tasks : List Task) : List TaskEnding :=
  (finished files tasks).map (Task.ending files) ++
    if ∃ task ∈ tasks, task.ending files = .aborted then [.aborted] else []

/-- Run: the tasks that are finished have the products that their inputs give at the start. -/
theorem runTasks_access {tasks : List Task} (undisturbed : Undisturbed tasks) (files : FileMap) :
    ∃ reports after, (runTasks FileMap.access tasks).run files = (reports, after) ∧
      reports.map TaskReport.ending = endings files tasks ∧
      Produced files (finished files tasks) after := by
  induction tasks generalizing files with
  | nil => exact ⟨[], files, rfl, rfl, fun _ there => (List.not_mem_nil there).elim, fun _ _ => rfl⟩
  | cons task tasks ih =>
    obtain ⟨records, ran⟩ := task.run_access files
    by_cases broken : task.ending files = .aborted
    · -- nothing is written, and nothing else is run
      have kept : task.leave files = files := by
        funext path
        refine Task.leave_of_elsewhere fun _ =>
          Option.eq_none_iff_forall_ne_some.2 fun source made => ?_
        rw [Task.ending_eq_succeeded_iff.2 ⟨source, made⟩] at broken
        cases broken
      refine ⟨[⟨.aborted, records⟩], files, ?_, ?_, ?_⟩
      · rw [runTasks, run_bind_of_run ran, kept, broken]
        rfl
      · simp [endings, finished_cons, broken]
      · rw [finished_cons, if_pos broken]
        exact ⟨fun _ there => (List.not_mem_nil there).elim, fun _ _ => rfl⟩
    · obtain ⟨reports, after, rest, ends, produced⟩ := ih undisturbed.tail (task.leave files)
      have reads : ∀ later ∈ tasks, task.leave files later.input = files later.input :=
        fun later there => undisturbed.leave_input there
      have later_endings : ∀ later ∈ tasks, later.ending (task.leave files) = later.ending files :=
        fun later there => Task.ending_congr (reads later there)
      have same := finished_congr later_endings
      rw [same] at produced
      refine ⟨⟨task.ending files, records⟩ :: reports, after, ?_, ?_, ?_⟩
      · rw [runTasks, run_bind_of_run ran]
        rw [if_neg broken, run_bind_of_run rest]
        rfl
      · have earlier : (finished files tasks).map (Task.ending (task.leave files)) =
            (finished files tasks).map (Task.ending files) :=
          List.map_congr_left fun later there => later_endings later (mem_of_mem_finished there)
        have breaks : (∃ later ∈ tasks, later.ending (task.leave files) = .aborted) ↔
            ∃ later ∈ task :: tasks, later.ending files = .aborted := by
          simp only [List.mem_cons, exists_eq_or_imp, broken, false_or]
          exact exists_congr fun later => and_congr_right fun there => by
            rw [later_endings later there]
        rw [List.map_cons, ends, endings, same, earlier, endings, finished_cons, if_neg broken]
        simp only [breaks, List.map_cons, List.cons_append]
      · rw [finished_cons, if_neg broken]
        have products : ∀ later ∈ tasks, later.product? (task.leave files) = later.product? files :=
          fun later there => Task.product?_congr (reads later there)
        constructor
        · intro writer there source made
          cases there with
          | head =>
            -- No later task has the same output.
            rw [produced.kept task.output, Task.leave_output made]
            intro later behind same
            exact absurd same.symm (undisturbed.output_ne (mem_of_mem_finished behind))
          | tail _ behind =>
            exact produced.written writer behind source
              ((products writer (mem_of_mem_finished behind)).trans made)
        · intro path idle
          rw [produced.kept path, Task.leave_of_elsewhere (idle task (.head _))]
          intro later behind same
          rw [products later (mem_of_mem_finished behind)]
          exact idle later (.tail _ behind) same

/-! ## Arguments -/

/-- What arguments add to the options read before them: files behind the files, and verbosity. -/
def Options.extend (seen added : Options) : Options :=
  ⟨seen.files ++ added.files, seen.verbosity + added.verbosity⟩

theorem Options.extend_extend (seen first second : Options) :
    (seen.extend first).extend second = seen.extend (first.extend second) := by
  simp only [Options.extend, List.append_assoc, Nat.add_assoc]

/-- A higher verbosity, as an addition. -/
theorem Options.raise_eq_extend (seen : Options) : seen.raise = seen.extend ⟨[], 1⟩ := by
  simp only [Options.raise, Options.extend, List.append_nil]

/-- Letters that are followed are followed behind any options, and add the same to them. -/
theorem readShort_extend {seen next : Options} {letters : List Char}
    (read : readShort seen letters = .ok next) :
    ∃ added, ∀ seen, readShort seen letters = .ok (seen.extend added) := by
  fun_induction readShort seen letters with
  | case1 seen => exact ⟨⟨[], 0⟩, fun seen => by simp [readShort, Options.extend]⟩
  | case2 seen letters ih =>
    obtain ⟨added, adds⟩ := ih read
    refine ⟨Options.extend ⟨[], 1⟩ added, fun seen => ?_⟩
    rw [readShort, adds, Options.raise_eq_extend, Options.extend_extend]
  | case3 | case4 | case5 => cases read

/-- A long option that is followed is followed behind any options, and adds the same to them. -/
theorem readLong_extend {seen next : Options} {name : String} {value : Option String}
    (read : readLong seen name value = .ok next) :
    ∃ added, ∀ seen, readLong seen name value = .ok (seen.extend added) := by
  unfold readLong at read
  split at read
  case isTrue known =>
    cases value with
    | some value => cases read
    | none =>
      simp only at read
      split at read
      case isTrue named =>
        refine ⟨⟨[], 1⟩, fun seen => ?_⟩
        simp [readLong, named, Options.raise_eq_extend]
      case isFalse => split at read <;> cases read
  case isFalse => cases read

/-- An argument that is followed is followed behind any options, and adds the same to them. -/
theorem readArgument_extend {seen next : Options} {argument : String}
    (read : readArgument seen argument = .ok next) :
    ∃ added, ∀ seen, readArgument seen argument = .ok (seen.extend added) := by
  unfold readArgument at read ⊢
  split at read
  · split at read
    · exact readLong_extend read
    · exact readLong_extend read
  · exact readShort_extend read
  · exact ⟨⟨[argument], 0⟩, fun seen => rfl⟩

theorem readArguments_cons {seen : Options} {argument : String} {arguments : List String}
    (apart : argument ≠ "--") :
    readArguments seen (argument :: arguments) =
      (readArgument seen argument).bind fun next => readArguments next arguments := by
  rw [readArguments]
  · cases readArgument seen argument <;> rfl
  · exact apart

theorem readArguments_cons_eq_ok {seen next : Options} {argument : String} {arguments : List String}
    (apart : argument ≠ "--") :
    readArguments seen (argument :: arguments) = .ok next ↔
      ∃ between, readArgument seen argument = .ok between ∧
        readArguments between arguments = .ok next := by
  rw [readArguments_cons apart]
  cases readArgument seen argument with
  | error interruption => simp [Except.bind]
  | ok between => simp [Except.bind]

/-- The options with the same files in some order and the same verbosity. -/
def Options.Alike (options others : Options) : Prop :=
  options.files.Perm others.files ∧ options.verbosity = others.verbosity

theorem Options.Alike.extend {options others : Options} (alike : options.Alike others)
    (added : Options) : (options.extend added).Alike (others.extend added) :=
  ⟨alike.1.append_right _, congrArg (· + added.verbosity) alike.2⟩

/-- Additions in the other order come to the same, up to the order of the files. -/
theorem Options.Alike.extend_swap {options others : Options} (alike : options.Alike others)
    (first second : Options) :
    ((options.extend first).extend second).Alike ((others.extend second).extend first) := by
  constructor
  · simp only [Options.extend, List.append_assoc]
    exact alike.1.append List.perm_append_comm
  · simp only [Options.extend]
    have verbosity := alike.2
    omega

theorem readArguments_alike {arguments : List String} (apart : "--" ∉ arguments)
    {seen before next : Options} (alike : seen.Alike before)
    (read : readArguments seen arguments = .ok next) :
    ∃ after, readArguments before arguments = .ok after ∧ next.Alike after := by
  induction arguments generalizing seen before with
  | nil =>
    cases read
    exact ⟨before, rfl, alike⟩
  | cons argument arguments ih =>
    simp only [List.mem_cons, not_or] at apart
    obtain ⟨between, first, rest⟩ := (readArguments_cons_eq_ok (Ne.symm apart.1)).mp read
    obtain ⟨added, adds⟩ := readArgument_extend first
    cases (adds seen).symm.trans first
    obtain ⟨after, follows, result⟩ := ih apart.2 (alike.extend added) rest
    exact ⟨after, (readArguments_cons_eq_ok (Ne.symm apart.1)).mpr ⟨_, adds before, follows⟩,
      result⟩

/-- Without `--`, arguments that are followed in one order are followed in any other. -/
theorem readArguments_perm {arguments reordered : List String} (same : arguments.Perm reordered)
    (apart : "--" ∉ arguments) {seen next : Options}
    (read : readArguments seen arguments = .ok next) :
    ∃ after, readArguments seen reordered = .ok after ∧ next.Alike after := by
  induction same generalizing seen next with
  | nil => exact ⟨next, read, .refl _, rfl⟩
  | cons argument same ih =>
    simp only [List.mem_cons, not_or] at apart
    obtain ⟨between, first, rest⟩ := (readArguments_cons_eq_ok (Ne.symm apart.1)).mp read
    obtain ⟨after, follows, result⟩ := ih apart.2 rest
    exact ⟨after, (readArguments_cons_eq_ok (Ne.symm apart.1)).mpr ⟨between, first, follows⟩,
      result⟩
  | swap second first arguments =>
    simp only [List.mem_cons, not_or] at apart
    obtain ⟨firstApart, secondApart, apart⟩ := apart
    obtain ⟨_, one, rest⟩ := (readArguments_cons_eq_ok (Ne.symm firstApart)).mp read
    obtain ⟨_, two, rest⟩ := (readArguments_cons_eq_ok (Ne.symm secondApart)).mp rest
    obtain ⟨firstAdded, firstAdds⟩ := readArgument_extend one
    obtain ⟨secondAdded, secondAdds⟩ := readArgument_extend two
    cases (firstAdds _).symm.trans one
    cases (secondAdds _).symm.trans two
    have alike : ((seen.extend firstAdded).extend secondAdded).Alike
        ((seen.extend secondAdded).extend firstAdded) :=
      Options.Alike.extend_swap ⟨.refl _, rfl⟩ _ _
    obtain ⟨after, follows, result⟩ := readArguments_alike apart alike rest
    refine ⟨after, ?_, result⟩
    exact (readArguments_cons_eq_ok (Ne.symm secondApart)).mpr ⟨_, secondAdds _,
      (readArguments_cons_eq_ok (Ne.symm firstApart)).mpr ⟨_, firstAdds _, follows⟩⟩
  | trans there back ihThere ihBack =>
    obtain ⟨middle, reads, near⟩ := ihThere apart read
    obtain ⟨after, follows, far⟩ := ihBack (fun inside => apart (there.mem_iff.mpr inside)) reads
    exact ⟨after, follows, near.1.trans far.1, near.2.trans far.2⟩

/-! ## The program -/

/-- The exit code of a batch: one of its own if a task breaks off, else whether all tasks
succeed. -/
def exitCode (files : FileMap) (tasks : List Task) : Nat :=
  if ∃ task ∈ tasks, task.ending files = .aborted then abortedCode
  else if ∀ task ∈ tasks, task.ending files = .succeeded then 0 else 1

theorem exitCode_perm {files : FileMap} {tasks others : List Task} (same : tasks.Perm others) :
    exitCode files others = exitCode files tasks := by
  simp only [exitCode, same.mem_iff]

/-- A run breaks off if one of its tasks does. -/
theorem any_aborted {files : FileMap} {tasks : List Task} {reports : List TaskReport}
    (ends : reports.map TaskReport.ending = endings files tasks) :
    (reports.any fun report => decide (report.ending = .aborted)) = true ↔
      ∃ task ∈ tasks, task.ending files = .aborted := by
  have mem : (reports.any fun report => decide (report.ending = .aborted)) = true ↔
      TaskEnding.aborted ∈ reports.map TaskReport.ending := by
    simp [List.any_eq_true, List.mem_map]
  rw [mem, ends, endings]
  by_cases broken : ∃ task ∈ tasks, task.ending files = .aborted
  · simp [broken]
  · rw [if_neg broken, List.append_nil, List.mem_map]
    refine iff_of_false (fun ⟨task, there, ended⟩ => broken ?_) broken
    exact ⟨task, mem_of_mem_finished there, ended⟩

/-- The failures are counted right: if no task breaks off, there is none exactly if every task
succeeds. -/
theorem countP_failed_eq_zero {files : FileMap} {tasks : List Task} {reports : List TaskReport}
    (ends : reports.map TaskReport.ending = endings files tasks)
    (unbroken : ¬ ∃ task ∈ tasks, task.ending files = .aborted) :
    reports.countP (fun report => decide (report.ending = .failed)) = 0 ↔
      ∀ task ∈ tasks, task.ending files = .succeeded := by
  have none_broken : ∀ task ∈ tasks, task.ending files ≠ .aborted :=
    fun task there broken => unbroken ⟨task, there, broken⟩
  rw [endings, if_neg unbroken, List.append_nil, finished_eq_self none_broken] at ends
  have counted : reports.countP (fun report => decide (report.ending = .failed)) =
      tasks.countP fun task => decide (task.ending files = .failed) := by
    have along := congrArg (List.countP fun ending => decide (ending = TaskEnding.failed)) ends
    rwa [List.countP_map, List.countP_map] at along
  rw [counted, List.countP_eq_zero]
  refine forall₂_congr fun task there => ?_
  rw [decide_eq_true_eq]
  cases ended : task.ending files with
  | succeeded => exact iff_of_true nofun rfl
  | failed => exact iff_of_false (fun other => other rfl) nofun
  | aborted => exact absurd ended (none_broken task there)

/-- What a run that names files comes to: the products of the tasks that are finished, and an exit
code that tells how the tasks end. -/
structure Completed (files : FileMap) (tasks : List Task) (outcome : Report × FileMap) : Prop where
  produced : Produced files (finished files tasks) outcome.2
  code : outcome.1.code = exitCode files tasks

theorem completed_run {arguments : List String} {options : Options} (files : FileMap)
    (env : String → Option String) (read : Options.ofArguments arguments = .ok options)
    (named : options.files ≠ []) (undisturbed : Undisturbed (options.files.map Task.parse)) :
    Completed files (options.files.map Task.parse)
      ((run FileMap.access env arguments).run files) := by
  obtain ⟨reports, after, ran, ends, produced⟩ := runTasks_access undisturbed files
  have breaks := any_aborted ends
  have some_file : options.files.isEmpty = false := by simpa using named
  simp only [run, read, Options.run, some_file]
  rw [if_neg Bool.false_ne_true, run_bind_of_run ran]
  by_cases broken : ∃ task ∈ options.files.map Task.parse, task.ending files = .aborted
  · have code : exitCode files (options.files.map Task.parse) = abortedCode := if_pos broken
    rw [if_pos (breaks.2 broken)]
    exact ⟨produced, code.symm⟩
  · rw [if_neg (mt breaks.1 broken)]
    have failed := countP_failed_eq_zero ends broken
    by_cases none_failed : reports.countP (fun report => decide (report.ending = .failed)) = 0
    · have code : exitCode files (options.files.map Task.parse) = 0 := by
        rw [exitCode, if_neg broken, if_pos (failed.1 none_failed)]
      rw [if_pos none_failed]
      exact ⟨produced, code.symm⟩
    · have code : exitCode files (options.files.map Task.parse) = 1 := by
        rw [exitCode, if_neg broken, if_neg (mt failed.2 none_failed)]
      rw [if_neg none_failed]
      exact ⟨produced, code.symm⟩

/-- The files after a run, and its exit code, depend on its tasks and not on their order, unless one
of them breaks off. -/
theorem Completed.unique {files : FileMap} {tasks others : List Task}
    {outcome again : Report × FileMap} (first : Completed files tasks outcome)
    (second : Completed files others again) (same : tasks.Perm others)
    (unbroken : ∀ task ∈ tasks, task.ending files ≠ .aborted) :
    again.2 = outcome.2 ∧ again.1.code = outcome.1.code := by
  have produced := first.produced
  have reproduced := second.produced
  rw [finished_eq_self unbroken] at produced
  rw [finished_eq_self fun task there => unbroken task (same.mem_iff.2 there)] at reproduced
  exact ⟨produced.unique reproduced same, by rw [first.code, second.code, exitCode_perm same]⟩

/-- **Each file of a batch is for itself**, unless a task breaks off, which needs a text that begins
with a byte order mark. When the outputs that the arguments name are different from each other and
from the inputs, a run leaves in the output of each task that is finished what its input gives, if
it gives anything, and every other file as it was.

If no task breaks off, all are finished. The exit code is then 0 if each task has a product and 1 if
not, and the arguments in any other order, or any others that name the same files, come to the same.
If a task breaks off, the tasks before it are finished, and the exit code is another one. -/
theorem run_batch {arguments : List String} {options : Options} (files : FileMap)
    (env : String → Option String) (read : Options.ofArguments arguments = .ok options)
    (named : options.files ≠ []) (undisturbed : Undisturbed (options.files.map Task.parse)) :
    let tasks := options.files.map Task.parse
    let outcome := (run FileMap.access env arguments).run files
    (∀ task ∈ finished files tasks, ∀ source, task.product? files = some source →
      outcome.2 task.output = some source) ∧
    (∀ path, (∀ task ∈ finished files tasks, task.output = path → task.product? files = none) →
      outcome.2 path = files path) ∧
    ((∀ task ∈ tasks, task.ending files ≠ .aborted) →
      finished files tasks = tasks ∧
      (outcome.1.code = 0 ∧ (∀ task ∈ tasks, ∃ source, task.product? files = some source) ∨
        outcome.1.code = 1 ∧ ∃ task ∈ tasks, task.product? files = none) ∧
      (∀ others otherOptions, Options.ofArguments others = .ok otherOptions →
        options.files.Perm otherOptions.files →
        ((run FileMap.access env others).run files).2 = outcome.2 ∧
          ((run FileMap.access env others).run files).1.code = outcome.1.code) ∧
      ("--" ∉ arguments → ∀ reordered, arguments.Perm reordered →
        ((run FileMap.access env reordered).run files).2 = outcome.2 ∧
          ((run FileMap.access env reordered).run files).1.code = outcome.1.code)) ∧
    ∀ task ∈ tasks, task.ending files = .aborted →
      outcome.1.code = abortedCode ∧
        ∃ text, files task.input = some text ∧ text.toList.head? = some '\ufeff' := by
  intro tasks outcome
  have completed : Completed files tasks outcome := completed_run files env read named undisturbed
  refine ⟨completed.produced.written, completed.produced.kept, fun unbroken => ?_,
    fun task there broken => ⟨?_, Task.marked_of_aborted broken⟩⟩
  · have same_files : ∀ others otherOptions, Options.ofArguments others = .ok otherOptions →
        options.files.Perm otherOptions.files →
        ((run FileMap.access env others).run files).2 = outcome.2 ∧
          ((run FileMap.access env others).run files).1.code = outcome.1.code := by
      intro others otherOptions readOthers same
      have sameTasks := same.map Task.parse
      refine completed.unique (completed_run files env readOthers ?_ (undisturbed.perm sameTasks))
        sameTasks unbroken
      intro empty
      exact named (List.perm_nil.mp (empty ▸ same))
    have none_broken : ¬ ∃ task ∈ tasks, task.ending files = .aborted :=
      fun ⟨task, there, broken⟩ => unbroken task there broken
    refine ⟨finished_eq_self unbroken, ?_, same_files, fun apart reordered same => ?_⟩
    · have code := completed.code
      rw [exitCode, if_neg none_broken] at code
      by_cases all : ∀ task ∈ tasks, task.ending files = .succeeded
      · rw [if_pos all] at code
        exact .inl ⟨code, fun task there => Task.ending_eq_succeeded_iff.1 (all task there)⟩
      · rw [if_neg all] at code
        push Not at all
        obtain ⟨task, there, unfinished⟩ := all
        refine .inr ⟨code, task, there, Option.eq_none_iff_forall_ne_some.2 fun source made => ?_⟩
        exact unfinished (Task.ending_eq_succeeded_iff.2 ⟨source, made⟩)
    · obtain ⟨after, readReordered, alike⟩ := readArguments_perm same apart read
      exact same_files reordered after readReordered alike.1
  · rw [completed.code, exitCode, if_pos ⟨task, there, broken⟩]

/-- A document, a text that is none, one on which the generator breaks off, and what an earlier run
left. -/
def mixedFiles : FileMap
  | "page.xml" =>
    some "<Label xmlns:x='http://schemas.microsoft.com/winfx/2006/xaml' x:Class='App.Page'/>"
  | "text.xml" => some "Label"
  | "text.rs" => some "before"
  | "marked.xml" =>
    some ("\ufeff<a xmlns:x='http://schemas.microsoft.com/winfx/2006/xaml' x:Class='A.B' " ++
      "t='é'><b")
  | _ => none

theorem page_succeeds :
    (Task.product? mixedFiles ⟨"page.xml", "page.rs"⟩).isSome = true := by decide +kernel

/-- A batch of three: a document, one that is missing and a text that is none. The first is
generated from, the output of the last stays as it was, and the run fails. -/
theorem run_batch_mixed :
    let outcome := (run FileMap.access (fun _ => none)
      ["page.xml , page.rs", "gone.xml", "-v", "text.xml,text.rs"]).run mixedFiles
    (outcome.2 "page.rs").isSome ∧
      outcome.2 "page.rs" = Task.product? mixedFiles ⟨"page.xml", "page.rs"⟩ ∧
      outcome.2 "gone.xml.g.rs" = none ∧ outcome.2 "text.rs" = some "before" ∧
      outcome.1.code = 1 := by
  have gone : Task.product? mixedFiles ⟨"gone.xml", "gone.xml.g.rs"⟩ = none := by decide +kernel
  have text : Task.product? mixedFiles ⟨"text.xml", "text.rs"⟩ = none := by decide +kernel
  have tasks : ["page.xml , page.rs", "gone.xml", "text.xml,text.rs"].map Task.parse =
      [⟨"page.xml", "page.rs"⟩, ⟨"gone.xml", "gone.xml.g.rs"⟩, ⟨"text.xml", "text.rs"⟩] := by
    decide +kernel
  have undisturbed :
      Undisturbed (["page.xml , page.rs", "gone.xml", "text.xml,text.rs"].map Task.parse) := by
    rw [tasks]
    exact ⟨by decide, by decide⟩
  have read : Options.ofArguments ["page.xml , page.rs", "gone.xml", "-v", "text.xml,text.rs"] =
      .ok ⟨["page.xml , page.rs", "gone.xml", "text.xml,text.rs"], 1⟩ := rfl
  have batch := run_batch mixedFiles (fun _ => none) read (List.cons_ne_nil _ _) undisturbed
  simp only [tasks] at batch
  generalize (run FileMap.access (fun _ => none)
    ["page.xml , page.rs", "gone.xml", "-v", "text.xml,text.rs"]).run mixedFiles =
      outcome at batch ⊢
  obtain ⟨written, kept, unbroken, -⟩ := batch
  obtain ⟨all, code, -⟩ := unbroken (by decide +kernel)
  rw [all] at written kept
  obtain ⟨source, made⟩ := Option.isSome_iff_exists.mp page_succeeds
  have after : outcome.2 "page.rs" = some source := written _ (.head _) source made
  refine ⟨by simp [after], after.trans made.symm, ?_, ?_, ?_⟩
  · exact kept "gone.xml.g.rs" (by simp [gone])
  · exact kept "text.rs" (by simp [text])
  · rcases code with ⟨-, all⟩ | ⟨failed, -⟩
    · obtain ⟨source, made⟩ := all ⟨"text.xml", "text.rs"⟩ (by simp)
      simp [text] at made
    · exact failed

/-- Not every task of a batch is run: behind one on which the generator breaks off, the output of a
task with a product is not written. -/
theorem not_every_task_run :
    ¬ ∀ (files : FileMap) (arguments : List String) (options : Options),
      Options.ofArguments arguments = .ok options → options.files ≠ [] →
      Undisturbed (options.files.map Task.parse) →
      ∀ task ∈ options.files.map Task.parse, ∀ source, task.product? files = some source →
        ((run FileMap.access (fun _ => none) arguments).run files).2 task.output = some source := by
  intro law
  have tasks : ["marked.xml,marked.rs", "page.xml,page.rs"].map Task.parse =
      [⟨"marked.xml", "marked.rs"⟩, ⟨"page.xml", "page.rs"⟩] := by
    decide +kernel
  have read : Options.ofArguments ["marked.xml,marked.rs", "page.xml,page.rs"] =
      .ok ⟨["marked.xml,marked.rs", "page.xml,page.rs"], 0⟩ := rfl
  have undisturbed : Undisturbed (["marked.xml,marked.rs", "page.xml,page.rs"].map Task.parse) := by
    rw [tasks]
    exact ⟨by decide, by decide⟩
  obtain ⟨source, made⟩ := Option.isSome_iff_exists.mp page_succeeds
  have written := law mixedFiles _ _ read (List.cons_ne_nil _ _) undisturbed ⟨"page.xml", "page.rs"⟩
    (by rw [tasks]; simp) source made
  have completed := completed_run mixedFiles (fun _ => none) read (List.cons_ne_nil _ _) undisturbed
  have none_finished : finished mixedFiles [⟨"marked.xml", "marked.rs"⟩,
      ⟨"page.xml", "page.rs"⟩] = [] := by
    decide +kernel
  have kept := completed.produced.kept "page.rs" (by rw [tasks, none_finished]; simp)
  rw [written] at kept
  cases kept

end MarkupForms.CommandLine
