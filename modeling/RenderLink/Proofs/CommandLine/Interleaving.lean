/-
**Tasks do not disturb each other.**

The tasks of a run share a file system and take turns in any order. If the files are independent,
every task ends as if it ran alone on the file system that the run began with. The reason is that a
task only puts its module at a free location, which changes no directory and no link, so every path
leads where it led at the beginning; and no task reads what another one has put.

What holds between the turns is an invariant of the tasks and of the file system. One turn keeps it,
and so does every schedule.

* `prepares_of_undisturbed`: reading and compiling a file that nobody has written.
* `Invariant.turn`, `Invariant.foldl`: one turn and a whole schedule.
* `Invariant.contract`: **tasks that are finished have kept the contract**.
-/

import RenderLink.Proofs.CommandLine.Contract
import RenderLink.Proofs.CommandLine.Schedule
import RenderLink.Proofs.FileSystem.Canonical

namespace RenderLink

namespace CommandLine

open FileSystem Text

variable {adapter : Adapter} {block : TemplateBlock} {options : ResolvedOptions}
  {initial current : FileSystem} {file : Path} {location : Location} {text : String}

/-! ### The first step -/

/-- A path that leads to the same entry in two file systems has the same text in them. -/
theorem readText_congr {path : Path} {first second : FileSystem}
    (resolved : first.resolve path = .ok location) (again : second.resolve path = .ok location)
    (same : first.find? location = second.find? location) :
    first.readText path = second.readText path := by
  simp only [readText, resolved, again, bind, Except.bind, same]

section Undisturbed

variable (wellFormed : initial.WellFormed) (same : initial.SameTree current)
  (undisturbed : ∀ location, initial.Names file location →
    current.find? location = initial.find? location)

include same undisturbed

/-- A file that nobody has written does not appear either. -/
theorem resolve_of_undisturbed (resolved : current.resolve file = .ok location) :
    initial.resolve file = .ok location := by
  -- A file that is new would stand where the path names, but there is nothing new there.
  refine same.symm.resolve resolved fun content there => ?_
  have names := same.symm.names ((isFree_of_file there).of_sameTree same.symm) resolved
  rw [← undisturbed location names, there]
  exact Option.some_ne_none _

include wellFormed

/-- What a file leads to at the beginning is still there. -/
theorem find?_of_undisturbed (resolved : initial.resolve file = .ok location) :
    current.find? location = initial.find? location := by
  obtain ⟨present, plain⟩ := stands_of_resolve wellFormed resolved
  cases found : initial.find? location with
  | none => exact absurd found present
  | some entry =>
    cases entry with
    | directory => exact (same.directory location).1 found
    | link target => exact absurd found (plain target)
    | file content =>
      rw [← found]
      exact undisturbed location ((SameTree.refl initial).names (isFree_of_file found) resolved)

/-- **Reading and compiling a file that nobody has written** leads to what it led to at the
beginning. -/
theorem prepares_of_undisturbed :
    Prepares adapter block options initial file
      (prepare FileSystem.disk adapter block options file current).1.1 := by
  cases found : initial.canonicalize file with
  | error cause =>
    cases appeared : current.canonicalize file with
    | error seen =>
      rw [prepare_missing appeared]
      exact .missing seen found
    | ok canonical =>
      cases resolved : current.resolve file with
      | error cause => simp [canonicalize, resolved, Except.map] at appeared
      | ok location =>
        have before := resolve_of_undisturbed same undisturbed resolved
        simp [canonicalize, before, Except.map] at found
  | ok canonical =>
    obtain ⟨location, resolved, rfl, reached⟩ := resolve_of_canonicalize wellFormed found
    have entry := find?_of_undisturbed wellFormed same undisturbed resolved
    have stays : ∀ path, initial.resolve path = .ok location →
        current.resolve path = .ok location := fun path leads =>
      same.resolve leads fun content there => by simp [entry, there]
    have again : current.canonicalize file = .ok (pathOf location) := by
      simp [canonicalize, stays file resolved, Except.map]
    have text : current.readText (pathOf location) = initial.readText (pathOf location) :=
      readText_congr (stays _ reached) reached entry
    cases read : initial.readText (pathOf location) with
    | error cause =>
      rw [prepare_unreadable again (text.trans read)]
      exact .unreadable found read
    | ok source =>
      rw [prepare_read again (text.trans read)]
      exact prepares_prepareText found read

end Undisturbed

/-! ### Turns -/

/-- How far a task has come is what its file allows. -/
def Task.Fits (adapter : Adapter) (block : TemplateBlock) (options : ResolvedOptions)
    (initial : FileSystem) (task : Task) : Prop :=
  match task.stage with
  | .waiting => True
  | .prepared prepared => Prepares adapter block options initial task.file prepared
  | .finished result => Settles adapter block options initial task.file result

/-- A task has written a text at a location. -/
def Written (adapter : Adapter) (block : TemplateBlock) (options : ResolvedOptions)
    (initial : FileSystem) (tasks : List Task) (location : Location) (text : String) : Prop :=
  ∃ task ∈ tasks, (∃ output, task.stage = .finished (.written output)) ∧
    Writes adapter block options initial task.file location text

/-- What holds between the turns of a run: the tasks are those of the files, each fits its file, and
the file system is the one of the beginning with the texts of the tasks that have written. -/
structure Invariant (adapter : Adapter) (block : TemplateBlock) (options : ResolvedOptions)
    (initial : FileSystem) (files : List Path) (state : State) : Prop where
  files : state.tasks.map Task.file = files
  fits : ∀ task ∈ state.tasks, task.Fits adapter block options initial
  written : ∀ location text, Written adapter block options initial state.tasks location text →
    state.files.find? location = some (.file (encode text.toList))
  unchanged : ∀ location,
    (∀ text, ¬Written adapter block options initial state.tasks location text) →
      state.files.find? location = initial.find? location
  workingDirectory : state.files.workingDirectory = initial.workingDirectory

section Set

variable {tasks : List Task} {place : Nat} {task after : Task}

/-- A step of a task leaves the files of the tasks as they are. -/
theorem map_file_set (found : tasks[place]? = some task) (same : after.file = task.file) :
    (tasks.set place after).map Task.file = tasks.map Task.file := by
  obtain ⟨within, rfl⟩ := List.getElem?_eq_some_iff.1 found
  have inside : place < (tasks.map Task.file).length := by simpa using within
  have self := List.set_getElem_self inside
  rw [List.getElem_map] at self
  rw [List.map_set, same, self]

/-- A task that differs from the one at a place stands at another place. -/
theorem exists_other_place {other : Task} (found : tasks[place]? = some task)
    (member : other ∈ tasks) (different : task ≠ other) :
    ∃ there, place ≠ there ∧ tasks[there]? = some other := by
  obtain ⟨there, stands⟩ := List.getElem?_of_mem member
  refine ⟨there, ?_, stands⟩
  rintro rfl
  exact different (Option.some.inj (found.symm.trans stands))

/-- What has been written after a step is what had been written and what the task has written. -/
theorem written_set (found : tasks[place]? = some task)
    (pending : ∀ output, task.stage ≠ .finished (.written output)) :
    Written adapter block options initial (tasks.set place after) location text ↔
      Written adapter block options initial tasks location text ∨
        (∃ output, after.stage = .finished (.written output)) ∧
          Writes adapter block options initial after.file location text := by
  constructor
  · rintro ⟨other, member, finished, writes⟩
    obtain member | rfl := List.mem_or_eq_of_mem_set member
    · exact .inl ⟨other, member, finished, writes⟩
    · exact .inr ⟨finished, writes⟩
  · rintro (⟨other, member, ⟨output, finished⟩, writes⟩ | ⟨finished, writes⟩)
    · obtain ⟨there, apart, stands⟩ := exists_other_place found member fun same =>
        pending output (same ▸ finished)
      have stays : (tasks.set place after)[there]? = some other :=
        (List.getElem?_set_ne apart).trans stands
      exact ⟨other, List.mem_of_getElem? stays, ⟨output, finished⟩, writes⟩
    · exact ⟨after, List.mem_set (List.getElem?_eq_some_iff.1 found).1 after, finished, writes⟩

end Set

namespace Invariant

variable {files : List Path} {state : State}

/-- No task has written at the beginning. -/
theorem start (initial : FileSystem) (files : List Path) :
    Invariant adapter block options initial files ⟨tasksOf files, initial⟩ := by
  have waiting : ∀ task ∈ tasksOf files, task.stage = .waiting := by simp [tasksOf]
  refine ⟨by simp [tasksOf, Function.comp_def], fun task member => ?_,
    fun location text written => ?_, fun _ _ => rfl, rfl⟩
  · simp [Task.Fits, waiting task member]
  · obtain ⟨task, member, ⟨output, finished⟩, -⟩ := written
    rw [waiting task member] at finished
    cases finished

/-- The tasks have changed no directory and no link. -/
theorem sameTree (invariant : Invariant adapter block options initial files state) :
    initial.SameTree state.files := by
  have entry : ∀ location, state.files.find? location = initial.find? location ∨
      initial.IsFree location ∧ state.files.IsFree location := by
    intro location
    by_cases written : ∃ text, Written adapter block options initial state.tasks location text
    · obtain ⟨text, written⟩ := written
      obtain ⟨task, member, finished, writes⟩ := id written
      exact .inr ⟨writes.isFree, isFree_of_file (invariant.written location text written)⟩
    · exact .inl (invariant.unchanged location (not_exists.1 written))
  refine ⟨invariant.workingDirectory.symm, fun location => ?_, fun location target => ?_⟩
  · obtain same | ⟨before, after⟩ := entry location
    · rw [same]
    · exact iff_of_false before.1 after.1
  · obtain same | ⟨before, after⟩ := entry location
    · rw [same]
    · exact iff_of_false (before.2 target) (after.2 target)

section Turn

variable {place : Nat} {task after : Task} {module : Module}
  (invariant : Invariant adapter block options initial files state)
  (found : state.tasks[place]? = some task) (same : after.file = task.file)
  (pending : ∀ output, task.stage ≠ .finished (.written output))

include invariant

/-- Every task fits its file after a step of one of them. -/
theorem fits_set (fits : after.Fits adapter block options initial) :
    ∀ other ∈ state.tasks.set place after, other.Fits adapter block options initial := by
  intro other member
  obtain member | rfl := List.mem_or_eq_of_mem_set member
  · exact invariant.fits other member
  · exact fits

include found same pending

/-- A step that writes nothing. -/
theorem silent (fits : after.Fits adapter block options initial)
    (unwritten : ∀ output, after.stage ≠ .finished (.written output)) :
    Invariant adapter block options initial files
      ⟨state.tasks.set place after, state.files⟩ := by
  have written : ∀ location text,
      Written adapter block options initial (state.tasks.set place after) location text ↔
        Written adapter block options initial state.tasks location text := by
    intro location text
    rw [written_set found pending]
    exact or_iff_left fun ⟨⟨output, finished⟩, _⟩ => unwritten output finished
  refine ⟨(map_file_set found same).trans invariant.files,
    invariant.fits_set fits, ?_, ?_, invariant.workingDirectory⟩
  · simpa only [written] using invariant.written
  · simpa only [written] using invariant.unchanged

/-- A step that writes a module. -/
theorem write (independent : Independent initial files)
    (writes : Writes adapter block options initial task.file location module.text)
    (finished : after.stage = .finished (.written module.output))
    (fits : after.Fits adapter block options initial) :
    Invariant adapter block options initial files
      ⟨state.tasks.set place after,
        state.files.put location (.file (encode module.text.toList))⟩ := by
  have member : ∀ other ∈ state.tasks, other.file ∈ files := fun other member =>
    invariant.files ▸ List.mem_map_of_mem member
  have put := state.files.find?_put (.file (encode module.text.toList)) writes.isFree.ne_root
  refine ⟨(map_file_set found same).trans invariant.files, invariant.fits_set fits,
    fun other text written => ?_, fun other unwritten => ?_, invariant.workingDirectory⟩
  · obtain ⟨earlier, among, wrote, rewrites⟩ | ⟨-, rewrites⟩ :=
      (written_set found pending).1 written
    · by_cases here : other = location
      · -- Another task has written the same file: its input has the same canonical path.
        subst here
        rw [put, independent.text_unique (member _ (List.mem_of_getElem? found))
          (member _ among) writes rewrites]
      · rw [find?_put_of_ne _ _ here]
        exact invariant.written other text ⟨earlier, among, wrote, rewrites⟩
    · rw [same] at rewrites
      obtain rfl := writes.location_unique rewrites
      rw [put, independent.text_unique (member _ (List.mem_of_getElem? found))
        (member _ (List.mem_of_getElem? found)) writes rewrites]
  · have here : other ≠ location := by
      rintro rfl
      exact unwritten module.text
        ((written_set found pending).2 (.inr ⟨⟨_, finished⟩, same ▸ writes⟩))
    rw [find?_put_of_ne _ _ here]
    exact invariant.unchanged other fun text written =>
      unwritten text ((written_set found pending).2 (.inl written))

omit same

/-- No task has written the input of a task that has a step left. -/
theorem undisturbed (independent : Independent initial files)
    (names : initial.Names task.file location) :
    state.files.find? location = initial.find? location := by
  -- A task that has written is finished, so it stands at another place.
  refine invariant.unchanged location fun text written => ?_
  obtain ⟨other, member, ⟨output, finished⟩, writes⟩ := written
  obtain ⟨there, apart, stands⟩ := exists_other_place found member fun same =>
    pending output (same ▸ finished)
  have named : ∀ {place task}, state.tasks[place]? = some task →
      files[place]? = some (Task.file task) := fun stands => by
    rw [← invariant.files, List.getElem?_map, stands, Option.map_some]
  exact independent.inputs place there task.file other.file apart (named found) (named stands)
    location writes.outputAt names

end Turn

section Run

variable {place : Nat} {task : Task}

/-- The second step of a task. -/
theorem publish (invariant : Invariant adapter block options initial files state)
    (independent : Independent initial files) (found : state.tasks[place]? = some task)
    {prepared : Prepared} (stage : task.stage = .prepared prepared) :
    Invariant adapter block options initial files
      ⟨state.tasks.set place
          { task with stage := .finished (publish FileSystem.disk prepared state.files).1 },
        (publish FileSystem.disk prepared state.files).2⟩ := by
  have pending : ∀ output, task.stage ≠ .finished (.written output) := by simp [stage]
  have prepares : Prepares adapter block options initial task.file prepared := by
    simpa [Task.Fits, stage] using invariant.fits task (List.mem_of_getElem? found)
  cases prepared with
  | rejected reports =>
    rw [publish_rejected]
    exact invariant.silent found rfl pending (Settles.rejected prepares) (by simp)
  | failed chain =>
    rw [publish_failed]
    exact invariant.silent found rfl pending (Settles.failed prepares) (by simp)
  | ready module =>
    cases writable : state.files.resolveToFile module.output with
    | error seen =>
      have unwritable : state.files.writeText module.output module.text = .error seen := by
        simp [writeText, writable, bind, Except.bind]
      rw [publish_unwritable unwritable]
      cases before : initial.resolveToFile module.output with
      | error cause =>
        exact invariant.silent found rfl pending (Settles.unwritable seen prepares before)
          (by simp)
      | ok location =>
        have after := invariant.sameTree.resolveToFile before
        rw [writable] at after
        cases after
    | ok location =>
      have wrote : state.files.writeText module.output module.text =
          .ok (state.files.put location (.file (encode module.text.toList))) := by
        simp [writeText, writable, bind, Except.bind, pure, Except.pure]
      rw [publish_written wrote]
      have before := invariant.sameTree.symm.resolveToFile writable
      exact invariant.write found rfl pending independent (prepares.writes before) rfl
        (Settles.written prepares before)

/-- **One turn** keeps what holds between the turns. -/
theorem turn (wellFormed : initial.WellFormed) (independent : Independent initial files)
    (invariant : Invariant adapter block options initial files state) (place : Nat) :
    Invariant adapter block options initial files (turn adapter block options state place) := by
  cases found : state.tasks[place]? with
  | none =>
    rw [turn_none _ _ _ found]
    exact invariant
  | some task =>
    rw [turn_some _ _ _ found]
    cases stage : task.stage with
    | waiting =>
      have pending : ∀ output, task.stage ≠ .finished (.written output) := by simp [stage]
      rw [advance_waiting stage]
      exact invariant.silent found rfl pending
        (prepares_of_undisturbed wellFormed invariant.sameTree fun location names =>
          invariant.undisturbed found pending independent names)
        (by simp)
    | prepared prepared =>
      rw [advance_prepared stage]
      exact invariant.publish independent found stage
    | finished result =>
      rw [advance_finished stage]
      obtain ⟨within, rfl⟩ := List.getElem?_eq_some_iff.1 found
      simpa using invariant

/-- **A schedule** keeps what holds between the turns. -/
theorem foldl (wellFormed : initial.WellFormed) (independent : Independent initial files)
    (schedule : List Nat) (invariant : Invariant adapter block options initial files state) :
    Invariant adapter block options initial files
      (schedule.foldl (CommandLine.turn adapter block options) state) := by
  induction schedule generalizing state with
  | nil => exact invariant
  | cons place rest ih => exact ih (invariant.turn wellFormed independent place)

end Run

end Invariant

/-- What has become of the files of tasks that are finished. -/
theorem settles_of_finished {tasks : List Task}
    (fits : ∀ task ∈ tasks, task.Fits adapter block options initial)
    (finished : ∀ task ∈ tasks, ∃ result, task.stage = .finished result) :
    List.Forall₂ (Settles adapter block options initial) (tasks.map Task.file)
      (tasks.filterMap Task.result?) := by
  induction tasks with
  | nil => exact .nil
  | cons task rest ih =>
    obtain ⟨here, later⟩ := List.forall_mem_cons.1 fits
    obtain ⟨⟨result, stage⟩, others⟩ := List.forall_mem_cons.1 finished
    have found : task.result? = some result := by rw [Task.result?, stage]
    rw [List.filterMap_cons_some found, List.map_cons]
    refine .cons ?_ (ih later others)
    simpa [Task.Fits, stage] using here

/-- What holds between the turns is the contract when every task is finished. -/
theorem Invariant.contract {files : List Path} {state : State}
    (invariant : Invariant adapter block options initial files state)
    (finished : ∀ task ∈ state.tasks, ∃ result, task.stage = .finished result) :
    Contract adapter block options initial files (state.tasks.filterMap Task.result?)
      state.files := by
  have settles : List.Forall₂ (Settles adapter block options initial) files
      (state.tasks.filterMap Task.result?) :=
    invariant.files ▸ settles_of_finished invariant.fits finished
  refine ⟨settles, settles.imp fun _ _ => Settles.isWritten_iff,
    fun file member location text writes => ?_, fun location unwritten => ?_,
    invariant.workingDirectory⟩
  · rw [← invariant.files] at member
    obtain ⟨task, among, rfl⟩ := List.mem_map.1 member
    obtain ⟨result, stage⟩ := finished task among
    have settles : Settles adapter block options initial task.file result := by
      simpa [Task.Fits, stage] using invariant.fits task among
    have wrote : result.isWritten = true := settles.isWritten_iff.2 ⟨location, text, writes⟩
    cases result with
    | written output =>
      exact invariant.written location text ⟨task, among, ⟨output, stage⟩, writes⟩
    | rejected reports => cases wrote
    | failed chain => cases wrote
  · refine invariant.unchanged location fun text written => ?_
    obtain ⟨task, among, -, writes⟩ := written
    exact unwritten task.file (invariant.files ▸ List.mem_map_of_mem among) text writes

end CommandLine

end RenderLink
