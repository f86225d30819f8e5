/-
**Runs of the program with tasks that take turns.**

The program settles its configuration, loads the compiler bundle and then compiles its files in
tasks of their own. A script engine, which makes a compiler of the text of a bundle, is a parameter
of the run. What a run leaves behind and whether it fails is the same for every complete schedule,
and the same as when the files are compiled one after another.

* `compileFiles_eq`: files one after another are a complete schedule.
* `withRoot_eq_ok_iff`: what gives a configuration.
* `run_eq_runInterleaved`: **the program with its own bundles** runs as under that schedule.
* `runInterleaved_contract`: **a run under any schedule**.
* `run_contract`: **the program with its own bundles**, and its exit code.
-/

import RenderLink.Proofs.CommandLine.Interleaving

namespace RenderLink

namespace CommandLine

open FileSystem Text

/-! ### The program -/

/-- Runs the program on its arguments and variables, with tasks that take the turns of a schedule
and a script engine that makes a compiler of the text of a bundle. -/
def runInterleaved {m : Type → Type} [Monad m] (disk : Disk m)
    (engine : String → TemplateCompiler) (schedule : List Nat)
    (environment : Config.Environment) (arguments : List String) : m Outcome := do
  let files := files arguments
  if files.isEmpty then return { events := [], error := some [usage] }
  match ← Config.ofEnvironment disk environment with
  | .error error => return { events := [], error := some error.chain }
  | .ok config =>
    let start := startEvent files.length config.options
    match ← disk.readText config.bundle with
    | .error cause =>
      let context := "Failed to load template compiler from " ++ config.bundle.display
      return { events := [start], error := some (context :: (CompilerError.io cause).chain) }
    | .ok script =>
      let (results, events) ← compileInterleaved disk { compiler := engine script }
        ⟨isFunctional arguments⟩ config.options schedule files
      return { events := start :: events, error := failure? results }

/-- The script engine of the bundles that are described by what they do. -/
def describedEngine (script : String) : TemplateCompiler := (Bundle.ofText script).compiler

/-- The schedule under which tasks follow one another, from the task at a place on. -/
def sequentialFrom (place count : Nat) : List Nat :=
  (List.range' place count).flatMap fun place => [place, place]

/-! ### One file after another -/

theorem sequentialFrom_succ (place count : Nat) :
    sequentialFrom place (count + 1) = place :: place :: sequentialFrom (place + 1) count := by
  simp [sequentialFrom, List.range'_succ]

/-- Each task has two turns when tasks follow one another. -/
theorem two_le_count_sequentialFrom {start count place : Nat} (behind : start ≤ place)
    (within : place < start + count) : 2 ≤ (sequentialFrom start count).count place := by
  induction count generalizing start with
  | zero => omega
  | succ count ih =>
    rw [sequentialFrom_succ]
    by_cases here : start = place
    · simp [here]
    · have later : 2 ≤ (sequentialFrom (start + 1) count).count place :=
        ih (by omega) (by omega)
      simpa [here] using later

theorem isComplete_sequentialFrom (count : Nat) : IsComplete count (sequentialFrom 0 count) :=
  fun _ within => two_le_count_sequentialFrom (Nat.zero_le _) (by omega)

section Files

variable (adapter : Adapter) (block : TemplateBlock) (options : ResolvedOptions)

/-- The first of several files is read, compiled and written before the others. -/
theorem compileFiles_cons (file : Path) (rest : List Path) (initial : FileSystem) :
    let prepared := (prepare FileSystem.disk adapter block options file initial).1.1
    let published := publish FileSystem.disk prepared initial
    let later := compileFiles FileSystem.disk adapter block options rest published.2
    (compileFiles FileSystem.disk adapter block options (file :: rest) initial).1.1 =
        published.1 :: later.1.1 ∧
      (compileFiles FileSystem.disk adapter block options (file :: rest) initial).2 = later.2 := by
  intro prepared published later
  have first : publish FileSystem.disk prepared
      (prepare FileSystem.disk adapter block options file initial).2 = published := by
    rw [prepare_state]
  simp only [later, ← first]
  exact ⟨rfl, rfl⟩

/-- Behind tasks that are finished, files are compiled one after another as under the schedule in
which each task follows the one before it. -/
theorem foldl_sequentialFrom (finished : List Task) (files : List Path) (initial : FileSystem) :
    ∃ tasks, (sequentialFrom finished.length files.length).foldl (turn adapter block options)
        ⟨finished ++ tasksOf files, initial⟩ = ⟨finished ++ tasks,
          (compileFiles FileSystem.disk adapter block options files initial).2⟩ ∧
      tasks.filterMap Task.result? =
        (compileFiles FileSystem.disk adapter block options files initial).1.1 := by
  induction files generalizing finished initial with
  | nil => exact ⟨[], rfl, rfl⟩
  | cons file rest ih =>
    obtain ⟨results, final⟩ := compileFiles_cons adapter block options file rest initial
    rw [results, final]
    generalize published : publish FileSystem.disk
      (prepare FileSystem.disk adapter block options file initial).1.1 initial = outcome
    obtain ⟨tasks, turned, settled⟩ :=
      ih (finished ++ [⟨file, .finished outcome.1⟩]) outcome.2
    refine ⟨⟨file, .finished outcome.1⟩ :: tasks, ?_, ?_⟩
    · rw [List.length_cons, sequentialFrom_succ, List.foldl_cons, List.foldl_cons,
        tasksOf_cons, turn_append, advance_waiting rfl, turn_append, advance_prepared rfl,
        published]
      simpa using turned
    · rw [← settled]
      rfl

/-- The results and the file system under a schedule are those behind its turns. -/
theorem compileInterleaved_disk (schedule : List Nat) (files : List Path) (initial : FileSystem) :
    let final := schedule.foldl (turn adapter block options) ⟨tasksOf files, initial⟩
    (compileInterleaved FileSystem.disk adapter block options schedule files initial).1.1 =
        final.tasks.filterMap Task.result? ∧
      (compileInterleaved FileSystem.disk adapter block options schedule files initial).2 =
        final.files := by
  rw [← interleave_disk]
  exact ⟨rfl, rfl⟩

/-- **Files one after another** are compiled as under the schedule in which each task follows the
one before it. -/
theorem compileFiles_eq (files : List Path) (initial : FileSystem) :
    let sequential := compileInterleaved FileSystem.disk adapter block options
      (sequentialFrom 0 files.length) files initial
    (compileFiles FileSystem.disk adapter block options files initial).1.1 = sequential.1.1 ∧
      (compileFiles FileSystem.disk adapter block options files initial).2 = sequential.2 := by
  obtain ⟨results, final⟩ := compileInterleaved_disk adapter block options
    (sequentialFrom 0 files.length) files initial
  obtain ⟨tasks, turned, settled⟩ := foldl_sequentialFrom adapter block options [] files initial
  simp only [List.length_nil, List.nil_append] at turned
  rw [turned] at results final
  exact ⟨settled.symm.trans results.symm, final.symm⟩

variable {adapter block options}

/-- Compiling files under a complete schedule keeps the contract. -/
theorem compileInterleaved_contract {initial : FileSystem} {files : List Path}
    {schedule : List Nat} (wellFormed : initial.WellFormed)
    (independent : Independent initial files) (complete : IsComplete files.length schedule) :
    Contract adapter block options initial files
      (compileInterleaved FileSystem.disk adapter block options schedule files initial).1.1
      (compileInterleaved FileSystem.disk adapter block options schedule files initial).2 := by
  obtain ⟨results, final⟩ :=
    compileInterleaved_disk adapter block options schedule files initial
  rw [results, final]
  exact ((Invariant.start initial files).foldl wellFormed independent schedule).contract
    (finished_of_complete complete initial)

end Files

/-! ### Failing -/

/-- A run fails exactly if one of its files has not been written. -/
theorem failure?_eq_none_iff (results : List Result) :
    failure? results = none ↔ ∀ result ∈ results, result.isWritten = true := by
  simp [failure?]

/-- A run that keeps the contract fails unless every file is to be written. -/
theorem Contract.failure?_eq_none_iff {adapter : Adapter} {block : TemplateBlock}
    {options : ResolvedOptions} {initial final : FileSystem} {files : List Path}
    {results : List Result}
    (contract : Contract adapter block options initial files results final) :
    failure? results = none ↔ ∀ file ∈ files,
      ∃ location text, Writes adapter block options initial file location text := by
  rw [CommandLine.failure?_eq_none_iff]
  have pairs := contract.isWritten
  clear contract
  induction pairs with
  | nil => simp
  | cons pair _ ih => simp only [List.forall_mem_cons, pair, ih]

/-- How a run fails depends on which files have been written. -/
theorem failure?_congr {results again : List Result}
    (same : results.map Result.isWritten = again.map Result.isWritten) :
    failure? results = failure? again := by
  have unwritten : ∀ results : List Result,
      (results.filter fun result => !result.isWritten).length =
        ((results.map Result.isWritten).filter fun written => !written).length := by
    intro results
    rw [List.filter_map, List.length_map]
    rfl
  have length : results.length = again.length := by
    simpa using congrArg List.length same
  simp only [failure?, unwritten, same, length]

/-! ### Runs -/

/-- The path that is to lead to the project root: the one that the variables name, or the working
directory. -/
def namedRoot (environment : Config.Environment) (initial : FileSystem) : Path :=
  match environment "TEMPLATE_LINKER_ROOT" with
  | some root => Path.ofString root
  | none => pathOf initial.workingDirectory

theorem root_disk (environment : Config.Environment) (initial : FileSystem) :
    Config.root FileSystem.disk environment initial =
      (.ok (namedRoot environment initial), initial) := by
  unfold Config.root namedRoot
  cases environment "TEMPLATE_LINKER_ROOT" <;> rfl

/-- The configuration on a file system, which stays as it is. -/
theorem ofEnvironment_disk (environment : Config.Environment) (initial : FileSystem) :
    Config.ofEnvironment FileSystem.disk environment initial =
      (match initial.canonicalize (namedRoot environment initial) with
        | .error cause => .error (.missingRoot (namedRoot environment initial) cause)
        | .ok root => Config.withRoot environment root, initial) := by
  simp only [Config.ofEnvironment, bind, StateT.bind, root_disk]
  simp only [FileSystem.disk]
  cases initial.canonicalize (namedRoot environment initial) <;> rfl

/-- Settling the configuration changes nothing on the disk. -/
theorem ofEnvironment_state (environment : Config.Environment) (initial : FileSystem) :
    (Config.ofEnvironment FileSystem.disk environment initial).2 = initial := by
  rw [ofEnvironment_disk]

theorem mapError_eq_ok_iff {ε ε' α : Type} {f : ε → ε'} {outcome : Except ε α} {value : α} :
    outcome.mapError f = .ok value ↔ outcome = .ok value := by
  cases outcome <;> simp [Except.mapError]

/-- **What gives a configuration:** overrides that can be read, if there are any, a root that is not
empty, no empty mark around interpolations, and the name of a bundle. -/
theorem withRoot_eq_ok_iff {environment : Config.Environment} {root : Path} {config : Config} :
    Config.withRoot environment root = .ok config ↔
      ∃ overrides bundle, Config.overrides environment = .ok overrides ∧
        environment "TEMPLATE_LINKER_COMPILER" = some bundle ∧
        config =
          { options :=
              { root, overrides
                isProduction := Config.isProduction environment
                liveServerBase := environment "TEMPLATE_LINKER_LIVE_BASE" }
            bundle := Path.ofString bundle } ∧
        config.options.root.bytes ≠ [] ∧
        ∀ first second, config.options.delimiters? = some (first, second) →
          first ≠ "" ∧ second ≠ "" := by
  simp only [← ResolvedOptions.validate_eq_ok_iff, Config.withRoot, bind, Except.bind]
  -- the overrides, their validation and the bundle may each be at fault
  constructor
  · intro configured
    split at configured
    · cases configured
    next overrides read =>
    split at configured
    · cases configured
    next valid =>
    split at configured
    · next bundle named =>
      cases configured
      exact ⟨overrides, bundle, read, named, rfl, mapError_eq_ok_iff.mp valid⟩
    · cases configured
  · rintro ⟨overrides, bundle, read, named, rfl, valid⟩
    simp only [read, valid, named]
    rfl

section Runs

variable {engine : String → TemplateCompiler} {environment : Config.Environment}
  {arguments : List String} {initial : FileSystem} {config : Config} {script : String}

/-- A run whose configuration is valid and whose bundle can be loaded compiles its files. -/
theorem runInterleaved_eq (named : files arguments ≠ [])
    (configured : (Config.ofEnvironment FileSystem.disk environment initial).1 = .ok config)
    (loadable : initial.readText config.bundle = .ok script) (schedule : List Nat) :
    let compiled := compileInterleaved FileSystem.disk { compiler := engine script }
      ⟨isFunctional arguments⟩ config.options schedule (files arguments) initial
    runInterleaved FileSystem.disk engine schedule environment arguments initial =
      ({ events := startEvent (files arguments).length config.options :: compiled.1.2
         error := failure? compiled.1.1 }, compiled.2) := by
  have settled : Config.ofEnvironment FileSystem.disk environment initial =
      (.ok config, initial) := Prod.ext configured (ofEnvironment_state environment initial)
  have read : FileSystem.disk.readText config.bundle initial = (.ok script, initial) := by
    rw [← loadable]
    rfl
  simp only [runInterleaved, List.isEmpty_iff, named, if_false, bind, StateT.bind, settled, read]
  rfl

/-- A run without files tells how the program is called. -/
theorem runInterleaved_of_no_file (unnamed : files arguments = []) (schedule : List Nat) :
    runInterleaved FileSystem.disk engine schedule environment arguments initial =
      ({ events := [], error := some [usage] }, initial) := by
  simp only [runInterleaved, unnamed]
  rfl

/-- A bundle on a file system is the one that its text describes. -/
theorem load_disk (path : Path) (initial : FileSystem) :
    Bundle.load FileSystem.disk path initial =
      ((initial.readText path).map Bundle.ofText |>.mapError .io, initial) := by
  simp only [Bundle.load, bind, StateT.bind, FileSystem.disk]
  cases initial.readText path <;> rfl

/-- **The program with its own bundles** runs as with tasks that follow one another: it fails alike
and leaves the same file system behind. -/
theorem run_eq_runInterleaved (environment : Config.Environment) (arguments : List String)
    (initial : FileSystem) :
    let sequential := runInterleaved FileSystem.disk describedEngine
      (sequentialFrom 0 (files arguments).length) environment arguments initial
    (run FileSystem.disk environment arguments initial).1.error = sequential.1.error ∧
      (run FileSystem.disk environment arguments initial).2 = sequential.2 := by
  by_cases named : files arguments = []
  · simp only [runInterleaved_of_no_file named, run, named]
    exact ⟨rfl, rfl⟩
  have settled : Config.ofEnvironment FileSystem.disk environment initial =
      ((Config.ofEnvironment FileSystem.disk environment initial).1, initial) :=
    Prod.ext rfl (ofEnvironment_state environment initial)
  simp only [run, runInterleaved, List.isEmpty_iff, named, if_false, bind, StateT.bind]
  rw [settled]
  cases (Config.ofEnvironment FileSystem.disk environment initial).1 with
  | error error => exact ⟨rfl, rfl⟩
  | ok config =>
    have read : FileSystem.disk.readText config.bundle initial =
        (initial.readText config.bundle, initial) := rfl
    simp only [StateT.bind, load_disk, read]
    cases initial.readText config.bundle with
    | error cause => exact ⟨rfl, rfl⟩
    | ok script =>
      obtain ⟨results, final⟩ := compileFiles_eq { compiler := describedEngine script }
        ⟨isFunctional arguments⟩ config.options (files arguments) initial
      exact ⟨congrArg failure? results, final⟩

/-- A run under a complete schedule keeps the contract. -/
theorem exists_contract (engine : String → TemplateCompiler) {schedule : List Nat}
    (wellFormed : initial.WellFormed)
    (configured : (Config.ofEnvironment FileSystem.disk environment initial).1 = .ok config)
    (loadable : initial.readText config.bundle = .ok script)
    (independent : Independent initial (files arguments))
    (complete : IsComplete (files arguments).length schedule) :
    let ended := runInterleaved FileSystem.disk engine schedule environment arguments initial
    ∃ results,
      Contract { compiler := engine script } ⟨isFunctional arguments⟩ config.options initial
        (files arguments) results ended.2 ∧
      ended.1.error = if files arguments = [] then some [usage] else failure? results := by
  intro ended
  by_cases named : files arguments = []
  · simp only [ended, runInterleaved_of_no_file named, named]
    exact ⟨[], ⟨.nil, .nil, by simp, fun _ _ => rfl, rfl⟩, rfl⟩
  · simp only [ended, runInterleaved_eq named configured loadable, if_neg named]
    exact ⟨_, compileInterleaved_contract wellFormed independent complete, rfl⟩

/-- A run that keeps the contract ends without an error exactly if it has files and every one of
them is to be written. -/
theorem error_eq_none_iff {adapter : Adapter} {block : TemplateBlock} {options : ResolvedOptions}
    {files : List Path} {results : List Result} {final : FileSystem} {error : Option (List String)}
    (kept : Contract adapter block options initial files results final)
    (failed : error = if files = [] then some [usage] else failure? results) :
    error = none ↔ files ≠ [] ∧ ∀ file ∈ files,
      ∃ location text, Writes adapter block options initial file location text := by
  rw [failed, ← kept.failure?_eq_none_iff]
  by_cases named : files = [] <;> simp [named]

/-- Two runs that keep one contract end alike. -/
theorem Contract.ends_alike {adapter : Adapter} {block : TemplateBlock} {options : ResolvedOptions}
    {files : List Path} {results others : List Result} {final last : FileSystem}
    (kept : Contract adapter block options initial files results final)
    (again : Contract adapter block options initial files others last) :
    failure? others = failure? results ∧ last.workingDirectory = final.workingDirectory ∧
      ∀ location, last.find? location = final.find? location :=
  ⟨failure?_congr (again.map_isWritten_eq kept),
    again.workingDirectory.trans kept.workingDirectory.symm, again.find?_eq kept⟩

/-- **A run under any schedule.** If the configuration is valid, the bundle can be loaded and the
files are independent, then for every complete schedule the run keeps the contract: it succeeds
exactly if every file is to be written, and it ends in the same way for every other schedule. -/
theorem runInterleaved_contract (engine : String → TemplateCompiler) {schedule : List Nat}
    (wellFormed : initial.WellFormed)
    (configured : (Config.ofEnvironment FileSystem.disk environment initial).1 = .ok config)
    (loadable : initial.readText config.bundle = .ok script)
    (independent : Independent initial (files arguments))
    (complete : IsComplete (files arguments).length schedule) :
    let adapter : Adapter := { compiler := engine script }
    let block : TemplateBlock := ⟨isFunctional arguments⟩
    let ended := runInterleaved FileSystem.disk engine schedule environment arguments initial
    (∃ results,
      Contract adapter block config.options initial (files arguments) results ended.2 ∧
        ended.1.error =
          if files arguments = [] then some [usage] else failure? results) ∧
      (ended.1.error = none ↔ files arguments ≠ [] ∧ ∀ file ∈ files arguments,
        ∃ location text, Writes adapter block config.options initial file location text) ∧
      ∀ other, IsComplete (files arguments).length other →
        let again := runInterleaved FileSystem.disk engine other environment arguments initial
        again.1.error = ended.1.error ∧
          again.2.workingDirectory = ended.2.workingDirectory ∧
          ∀ location, again.2.find? location = ended.2.find? location := by
  intro adapter block ended
  obtain ⟨results, kept, error⟩ :=
    exists_contract engine wellFormed configured loadable independent complete
  refine ⟨⟨results, kept, error⟩, ?_, fun other finishes => ?_⟩
  · exact error_eq_none_iff kept error
  · obtain ⟨again, alike, failure⟩ :=
      exists_contract engine wellFormed configured loadable independent finishes
    obtain ⟨sameFailure, sameEnd⟩ := kept.ends_alike alike
    exact ⟨by rw [failure, error, sameFailure], sameEnd⟩

/-- **The program with its own bundles.** Under the same conditions a run of the program keeps the
contract: its exit code is zero exactly if it has files and every one of them is to be written, and
tasks that take turns under any complete schedule end in the same way. -/
theorem run_contract (wellFormed : initial.WellFormed)
    (configured : (Config.ofEnvironment FileSystem.disk environment initial).1 = .ok config)
    (loadable : initial.readText config.bundle = .ok script)
    (independent : Independent initial (files arguments)) :
    let adapter : Adapter := { compiler := describedEngine script }
    let block : TemplateBlock := ⟨isFunctional arguments⟩
    let ended := run FileSystem.disk environment arguments initial
    (∃ results,
      Contract adapter block config.options initial (files arguments) results ended.2 ∧
        ended.1.error =
          if files arguments = [] then some [usage] else failure? results) ∧
      (ended.1.exitCode = 0 ↔ files arguments ≠ [] ∧ ∀ file ∈ files arguments,
        ∃ location text, Writes adapter block config.options initial file location text) ∧
      ∀ schedule, IsComplete (files arguments).length schedule →
        let again := runInterleaved FileSystem.disk describedEngine schedule environment arguments
          initial
        again.1.error = ended.1.error ∧
          again.2.workingDirectory = ended.2.workingDirectory ∧
          ∀ location, again.2.find? location = ended.2.find? location := by
  intro adapter block ended
  obtain ⟨sameError, sameFiles⟩ := run_eq_runInterleaved environment arguments initial
  obtain ⟨results, kept, error⟩ := exists_contract describedEngine wellFormed configured loadable
    independent (isComplete_sequentialFrom _)
  rw [← sameError] at error
  rw [← sameFiles] at kept
  refine ⟨⟨results, kept, error⟩, ?_, fun schedule finishes => ?_⟩
  · rw [Outcome.exitCode_eq_zero_iff]
    exact error_eq_none_iff kept error
  · obtain ⟨again, alike, failure⟩ :=
      exists_contract describedEngine wellFormed configured loadable independent finishes
    obtain ⟨sameFailure, sameEnd⟩ := kept.ends_alike alike
    exact ⟨by rw [failure, error, sameFailure], sameEnd⟩

end Runs

/-! ### Two templates in turn -/

/-- The templates a and b and the bundle c in the root, each with the text x. -/
def site : FileSystem where
  entries := [([[97]], .file [120]), ([[98]], .file [120]), ([[99]], .file [120])]

/-- A script engine whose compilers return the template as code. -/
def copyEngine (_ : String) : TemplateCompiler where
  compile options := .ok { code := options.source, tips := [], errors := [] }

def siteEnvironment : Config.Environment
  | "TEMPLATE_LINKER_ROOT" => some "/"
  | "TEMPLATE_LINKER_COMPILER" => some "/c"
  | "TEMPLATE_LINKER_LIVE_BASE" => some "/"
  | _ => none

theorem site_wellFormed : site.WellFormed := by
  have entry : ∀ location name, site.find? (location ++ [name]) ≠ none →
      location = [] ∧ IsName name := by
    intro location name present
    obtain ⟨entry, member⟩ := mem_entries_of_find? present
    cases location with
    | nil =>
      have known : name = [97] ∨ name = [98] ∨ name = [99] := by
        simp [site] at member
        tauto
      refine ⟨rfl, ?_⟩
      obtain rfl | rfl | rfl := known <;>
        exact ⟨by decide, by decide, by decide, by decide, by decide⟩
    | cons first rest => simp [site] at member
  exact ⟨fun location name present => (entry location name present).1 ▸ rfl,
    fun location name present => (entry location name present).2⟩

theorem site_configured : (Config.ofEnvironment FileSystem.disk siteEnvironment site).1 =
    .ok { options := { root := ⟨[47]⟩, liveServerBase := some "/" }, bundle := ⟨[47, 99]⟩ } := by
  have root : site.canonicalize ⟨[47]⟩ = .ok ⟨[47]⟩ := by
    have resolved : site.resolve (pathOf []) = .ok [] :=
      resolve_pathOf site_wellFormed (stands_of_directory site.find?_root)
    exact congrArg (Except.map pathOf) resolved
  have spelled : namedRoot siteEnvironment site = ⟨[47]⟩ := rfl
  rw [ofEnvironment_disk, spelled, root]
  rfl

/-- A template of the site, whose module does not exist. -/
structure IsTemplate (name : Name) : Prop where
  single : name.length = 1
  isName : IsName name
  isModuleName : IsName (name ++ [46, 106, 115])
  file : site.find? [name] = some (.file [120])
  absent : site.find? [name ++ [46, 106, 115]] = none

namespace IsTemplate

variable {name : Name} {location : Location}

theorem resolve (template : IsTemplate name) : site.resolve (pathOf [name]) = .ok [name] :=
  resolve_pathOf site_wellFormed ⟨by simp [template.file], by simp [template.file]⟩

theorem canonicalize (template : IsTemplate name) :
    site.canonicalize (pathOf [name]) = .ok (pathOf [name]) :=
  congrArg (Except.map pathOf) template.resolve

theorem resolveToFile (template : IsTemplate name) :
    site.resolveToFile (outputPath (pathOf [name])) = .ok [name ++ [46, 106, 115]] := by
  have spelled : outputPath (pathOf [name]) = pathOf [name ++ [46, 106, 115]] := by
    simp [outputPath, pathOf, Path.append]
    rfl
  rw [spelled]
  exact resolveToFile_in_root template.isModuleName (by simp [IsFree, template.absent])

theorem outputAt (template : IsTemplate name)
    (output : OutputAt site (pathOf [name]) location) : location = [name ++ [46, 106, 115]] := by
  obtain ⟨canonical, found, writable⟩ := output
  obtain rfl := Except.ok.inj (template.canonicalize.symm.trans found)
  exact Except.ok.inj (writable.symm.trans template.resolveToFile)

theorem names (template : IsTemplate name) (free : site.IsFree location)
    (names : site.Names (pathOf [name]) location) : location = [name] := by
  have kept : (site.put location (.file [])).resolve (pathOf [name]) = .ok [name] :=
    (sameTree_put free []).resolve template.resolve fun content found => by
      by_cases here : [name] = location
      · simp [here, site.find?_put _ free.ne_root]
      · simp [find?_put_of_ne _ _ here, found]
  exact Except.ok.inj (names.symm.trans kept)

end IsTemplate

theorem isTemplate_first : IsTemplate [97] :=
  ⟨rfl, ⟨by decide, by decide, by decide, by decide, by decide⟩,
    ⟨by decide, by decide, by decide, by decide, by decide⟩, rfl, rfl⟩

theorem isTemplate_second : IsTemplate [98] :=
  ⟨rfl, ⟨by decide, by decide, by decide, by decide, by decide⟩,
    ⟨by decide, by decide, by decide, by decide, by decide⟩, rfl, rfl⟩

theorem site_files : files ["/a", "/b"] = [pathOf [[97]], pathOf [[98]]] := by
  decide +kernel

theorem isTemplate_of_mem : ∀ input ∈ files ["/a", "/b"],
    ∃ name, IsTemplate name ∧ input = pathOf [name] := by
  rw [site_files]
  rintro input (_ | ⟨_, _ | ⟨_, ⟨⟩⟩⟩)
  · exact ⟨_, isTemplate_first, rfl⟩
  · exact ⟨_, isTemplate_second, rfl⟩

theorem site_independent : Independent site (files ["/a", "/b"]) := by
  refine ⟨fun place other input file _ first second location output names => ?_,
    fun input first file second canonical other location found also different output => ?_⟩
  · obtain ⟨name, named, rfl⟩ := isTemplate_of_mem input (List.mem_of_getElem? first)
    obtain ⟨owner, owns, rfl⟩ := isTemplate_of_mem file (List.mem_of_getElem? second)
    obtain rfl := owns.outputAt output
    have same := named.names (by simp [IsFree, owns.absent]) names
    have lengths := congrArg List.length (List.cons.inj same).1
    simp [named.single, owns.single] at lengths
  · obtain ⟨name, named, rfl⟩ := isTemplate_of_mem input first
    obtain ⟨owner, owns, rfl⟩ := isTemplate_of_mem file second
    obtain rfl := Except.ok.inj (named.canonicalize.symm.trans found)
    obtain rfl := Except.ok.inj (owns.canonicalize.symm.trans also)
    obtain rfl := Except.ok.inj (named.resolveToFile.symm.trans output)
    rw [owns.resolveToFile]
    intro same
    have equal : owner = name := by simpa using same
    exact different (by rw [equal])

theorem readText_site (name : Name) (single : name.length = 1)
    (file : site.find? [name] = some (.file [120])) : site.readText (pathOf [name]) = .ok "x" := by
  have resolved : site.resolve (pathOf [name]) = .ok [name] :=
    resolve_pathOf site_wellFormed ⟨by simp [file], by simp [file]⟩
  have decoded : decode? [120] = some ['x'] := rfl
  have short : ¬pathLimit ≤ (pathOf [name]).bytes.length := by
    simp [pathOf, single, pathLimit]
  rw [readText, if_neg short]
  simp [resolved, file, bind, Except.bind, decoded]

theorem IsTemplate.writes {name : Name} (template : IsTemplate name) :
    Writes { compiler := copyEngine "x" } ⟨false⟩ { root := ⟨[47]⟩, liveServerBase := some "/" }
      site (pathOf [name]) [name ++ [46, 106, 115]] ("x\n" ++ exportStatement) :=
  ⟨_, _, ⟨template.canonicalize, _, readText_site name template.single template.file, rfl⟩, rfl,
    rfl, template.resolveToFile⟩

/-- The second task takes its turns between those of the first. -/
theorem two_templates_in_turn :
    let ended := runInterleaved FileSystem.disk copyEngine [0, 1, 1, 0] siteEnvironment
      ["/a", "/b"] site
    ended.1.error = none ∧
      ended.2.find? [[97, 46, 106, 115]] = some (.file (encode ("x\n" ++ exportStatement).toList)) ∧
      ended.2.find? [[97]] = some (.file [120]) := by
  intro ended
  have complete : IsComplete (files ["/a", "/b"]).length [0, 1, 1, 0] := by
    rw [site_files]
    decide
  obtain ⟨⟨results, contract, -⟩, succeeds, -⟩ :=
    runInterleaved_contract copyEngine site_wellFormed site_configured
      (readText_site [99] rfl rfl) site_independent complete
  refine ⟨succeeds.2 ⟨by simp [site_files], ?_⟩, ?_, ?_⟩
  · intro file member
    obtain ⟨name, template, rfl⟩ := isTemplate_of_mem file member
    exact ⟨_, _, template.writes⟩
  · exact contract.written (pathOf [[97]]) (by simp [site_files]) _ _ isTemplate_first.writes
  · refine contract.unchanged _ fun file member text writes => ?_
    obtain ⟨name, template, rfl⟩ := isTemplate_of_mem file member
    have location := writes.location_unique template.writes
    have lengths := congrArg List.length (List.cons.inj location).1
    simp [template.single] at lengths

/-- With a bundle that throws no module is to be written. -/
theorem not_writes_of_throws {initial : FileSystem} {block : TemplateBlock}
    {options : ResolvedOptions} {script : String} (throws : Bundle.ofText script = .throws)
    (file : Path) (location : Location) (text : String) :
    ¬Writes { compiler := describedEngine script } block options initial file location text := by
  rintro ⟨canonical, compilation, ⟨-, source, -, compiled⟩, -⟩
  simp only [Adapter.compile, describedEngine, throws] at compiled
  cases compiled

/-- The bundle of the site throws: the program fails, and it leaves the site as it is. -/
theorem program_with_throwing_bundle :
    let ended := run FileSystem.disk siteEnvironment ["/a", "/b"] site
    ended.1.exitCode ≠ 0 ∧ ∀ location, ended.2.find? location = site.find? location := by
  intro ended
  have throws : Bundle.ofText "x" = .throws := by decide +kernel
  obtain ⟨⟨results, contract, -⟩, succeeds, -⟩ :=
    run_contract site_wellFormed site_configured (readText_site [99] rfl rfl) site_independent
  refine ⟨fun succeeded => ?_, fun location => ?_⟩
  · obtain ⟨-, written⟩ := succeeds.1 succeeded
    obtain ⟨location, text, writes⟩ := written (pathOf [[97]]) (by simp [site_files])
    exact not_writes_of_throws throws _ _ _ writes
  · exact contract.unchanged location fun file _ text =>
      not_writes_of_throws throws file location text

end CommandLine

end RenderLink
