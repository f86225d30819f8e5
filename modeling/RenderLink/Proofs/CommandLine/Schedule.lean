/-
**Tasks under a schedule.**

The tasks of a run take turns: a schedule is a list of places, and each place lets the task that
stands there take its next step, which either reads and compiles its file or writes its module. A
schedule is complete if every task has its two turns; further turns of a finished task do nothing.

The program waits for its tasks in the order of the arguments, so the results and their events are
in this order, behind the events of the tasks themselves.

* `remaining_foldl`: each turn takes one step from those that a task has left.
* `finished_of_complete`: **a complete schedule finishes every task.**
-/

import RenderLink.CommandLine

namespace RenderLink

namespace CommandLine

/-! ### Definitions -/

/-- How far the task of a file has come. -/
inductive Stage where
  | waiting
  | prepared (prepared : Prepared)
  | finished (result : Result)

/-- The task of a file. -/
structure Task where
  file : Path
  stage : Stage := .waiting

/-- What became of the file of a task that is finished. -/
def Task.result? (task : Task) : Option Result :=
  match task.stage with
  | .finished result => some result
  | _ => none

/-- The number of steps that a task has left. -/
def Task.remaining (task : Task) : Nat :=
  match task.stage with
  | .waiting => 2
  | .prepared _ => 1
  | .finished _ => 0

section Steps

variable {m : Type → Type} [Monad m] (disk : Disk m) (adapter : Adapter) (block : TemplateBlock)
  (options : ResolvedOptions)

/-- The next step of a task, with its events. A finished task stays as it is. -/
def Task.advance (task : Task) : m (Task × List Log.Event) :=
  match task.stage with
  | .waiting => do
    let (prepared, events) ← prepare disk adapter block options task.file
    return ({ task with stage := .prepared prepared }, events)
  | .prepared prepared => do
    let result ← publish disk prepared
    return ({ task with stage := .finished result }, [])
  | .finished _ => return (task, [])

/-- Lets the task at a place take its next step, if there is one. -/
def advanceAt (tasks : List Task) (place : Nat) : m (List Task × List Log.Event) :=
  match tasks[place]? with
  | some task => do
    let (after, events) ← task.advance disk adapter block options
    return (tasks.set place after, events)
  | none => return (tasks, [])

/-- Lets tasks take their turns. -/
def interleave (tasks : List Task) : List Nat → m (List Task × List Log.Event)
  | [] => return (tasks, [])
  | place :: schedule => do
    let (after, events) ← advanceAt disk adapter block options tasks place
    let (final, later) ← interleave after schedule
    return (final, events ++ later)

/-- The tasks of files before their first steps. -/
def tasksOf (files : List Path) : List Task := files.map fun file => { file }

/-- Compiles files under a schedule: what became of each, and all events. -/
def compileInterleaved (schedule : List Nat) (files : List Path) :
    m (List Result × List Log.Event) := do
  let (tasks, events) ← interleave disk adapter block options (tasksOf files) schedule
  let results := tasks.filterMap Task.result?
  return (results, events ++ (files.zip results).flatMap fun (file, result) => result.events file)

end Steps

/-- Every one of a number of tasks has at least two turns. -/
def IsComplete (count : Nat) (schedule : List Nat) : Prop :=
  ∀ place < count, 2 ≤ schedule.count place

instance (count : Nat) (schedule : List Nat) : Decidable (IsComplete count schedule) :=
  inferInstanceAs (Decidable (∀ place < count, 2 ≤ schedule.count place))

/-! ### Steps on a file system -/

section FileSystem

variable {adapter : Adapter} {block : TemplateBlock} {options : ResolvedOptions}
  {files after : FileSystem} {file canonical : Path} {cause : FileError} {source : String}
  {module : Module} {task : Task} {tasks : List Task} {prepared : Prepared}

theorem prepare_missing (missing : files.canonicalize file = .error cause) :
    prepare FileSystem.disk adapter block options file files =
      ((.failed ["Template " ++ file.display ++ " does not exist", cause.message], []), files) := by
  simp only [prepare, FileSystem.disk, missing, bind, StateT.bind]
  rfl

theorem prepare_unreadable (found : files.canonicalize file = .ok canonical)
    (unreadable : files.readText canonical = .error cause) :
    prepare FileSystem.disk adapter block options file files =
      ((.failed ["Failed to read " ++ canonical.display, cause.message], []), files) := by
  simp only [prepare, FileSystem.disk, found, unreadable, bind, StateT.bind]
  rfl

theorem prepare_read (found : files.canonicalize file = .ok canonical)
    (read : files.readText canonical = .ok source) :
    prepare FileSystem.disk adapter block options file files =
      (prepareText adapter block options canonical source, files) := by
  simp only [prepare, FileSystem.disk, found, read, bind, StateT.bind]
  rfl

/-- Reading and compiling a file changes nothing on the disk. -/
theorem prepare_state (file : Path) (files : FileSystem) :
    (prepare FileSystem.disk adapter block options file files).2 = files := by
  cases found : files.canonicalize file with
  | error cause => rw [prepare_missing found]
  | ok canonical =>
    cases read : files.readText canonical with
    | error cause => rw [prepare_unreadable found read]
    | ok source => rw [prepare_read found read]

theorem publish_rejected (reports : List Report) :
    publish FileSystem.disk (.rejected reports) files = (.rejected reports, files) := rfl

theorem publish_failed (chain : List String) :
    publish FileSystem.disk (.failed chain) files = (.failed chain, files) := rfl

theorem publish_written (written : files.writeText module.output module.text = .ok after) :
    publish FileSystem.disk (.ready module) files = (.written module.output, after) := by
  simp only [publish, FileSystem.disk, written, bind, StateT.bind]
  rfl

theorem publish_unwritable
    (unwritable : files.writeText module.output module.text = .error cause) :
    publish FileSystem.disk (.ready module) files =
      (.failed ["Failed to write " ++ module.output.display, cause.message], files) := by
  simp only [publish, FileSystem.disk, unwritable, bind, StateT.bind]
  rfl

theorem advance_waiting (waiting : task.stage = .waiting) :
    task.advance FileSystem.disk adapter block options files =
      (({ task with
          stage := .prepared (prepare FileSystem.disk adapter block options task.file files).1.1 },
        (prepare FileSystem.disk adapter block options task.file files).1.2), files) := by
  have step : task.advance FileSystem.disk adapter block options files =
      (({ task with
          stage := .prepared (prepare FileSystem.disk adapter block options task.file files).1.1 },
        (prepare FileSystem.disk adapter block options task.file files).1.2),
        (prepare FileSystem.disk adapter block options task.file files).2) := by
    simp only [Task.advance, waiting]
    rfl
  rw [step, prepare_state]

theorem advance_prepared (ready : task.stage = .prepared prepared) :
    task.advance FileSystem.disk adapter block options files =
      (({ task with stage := .finished (publish FileSystem.disk prepared files).1 }, []),
        (publish FileSystem.disk prepared files).2) := by
  simp only [Task.advance, ready]
  rfl

theorem advance_finished {result : Result} (finished : task.stage = .finished result) :
    task.advance FileSystem.disk adapter block options files = ((task, []), files) := by
  simp only [Task.advance, finished]
  rfl

end FileSystem

/-! ### Turns on a file system -/

/-- The tasks of a run, and what they have made of the file system. -/
structure State where
  tasks : List Task
  files : FileSystem

theorem tasksOf_cons (file : Path) (rest : List Path) :
    tasksOf (file :: rest) = ⟨file, .waiting⟩ :: tasksOf rest := rfl

section Turns

variable (adapter : Adapter) (block : TemplateBlock) (options : ResolvedOptions)

/-- The state after a turn of the task at a place. -/
def turn (state : State) (place : Nat) : State :=
  match state.tasks[place]? with
  | some task =>
    let stepped := task.advance FileSystem.disk adapter block options state.files
    ⟨state.tasks.set place stepped.1.1, stepped.2⟩
  | none => state

theorem turn_some {state : State} {place : Nat} {task : Task}
    (found : state.tasks[place]? = some task) :
    turn adapter block options state place =
      ⟨state.tasks.set place
          (task.advance FileSystem.disk adapter block options state.files).1.1,
        (task.advance FileSystem.disk adapter block options state.files).2⟩ := by
  rw [turn, found]

theorem turn_none {state : State} {place : Nat} (absent : state.tasks[place]? = none) :
    turn adapter block options state place = state := by
  rw [turn, absent]

/-- A turn of the task behind a number of others. -/
theorem turn_append (front rest : List Task) (task : Task) (files : FileSystem) :
    turn adapter block options ⟨front ++ task :: rest, files⟩ front.length =
      ⟨front ++ (task.advance FileSystem.disk adapter block options files).1.1 :: rest,
        (task.advance FileSystem.disk adapter block options files).2⟩ := by
  have found : (front ++ task :: rest)[front.length]? = some task := by simp
  rw [turn, found]
  simp

/-- Tasks on a file system take the turns of a schedule one after another. -/
theorem interleave_disk (tasks : List Task) (schedule : List Nat) (files : FileSystem) :
    State.mk (interleave FileSystem.disk adapter block options tasks schedule files).1.1
        (interleave FileSystem.disk adapter block options tasks schedule files).2 =
      schedule.foldl (turn adapter block options) ⟨tasks, files⟩ := by
  induction schedule generalizing tasks files with
  | nil => rfl
  | cons place schedule ih =>
    have first : turn adapter block options ⟨tasks, files⟩ place =
        ⟨(advanceAt FileSystem.disk adapter block options tasks place files).1.1,
          (advanceAt FileSystem.disk adapter block options tasks place files).2⟩ := by
      unfold turn advanceAt
      cases tasks[place]? <;> rfl
    rw [List.foldl_cons, first, ← ih]
    rfl

variable {adapter block options}

/-- A turn takes one step from those that its task has left. -/
theorem remaining_advance (task : Task) (files : FileSystem) :
    (task.advance FileSystem.disk adapter block options files).1.1.remaining =
      task.remaining - 1 := by
  cases stage : task.stage with
  | waiting => simp [advance_waiting stage, Task.remaining, stage]
  | prepared prepared => simp [advance_prepared stage, Task.remaining, stage]
  | finished result => simp [advance_finished stage, Task.remaining, stage]

theorem remaining_turn (state : State) (place other : Nat) :
    (turn adapter block options state place).tasks[other]?.map Task.remaining =
      (state.tasks[other]?.map Task.remaining).map (· - if place = other then 1 else 0) := by
  unfold turn
  cases found : state.tasks[place]? with
  | none =>
    by_cases same : place = other
    · simp [← same, found]
    · simp [same, -Option.map_map]
  | some task =>
    by_cases same : place = other
    · obtain ⟨within, rfl⟩ := List.getElem?_eq_some_iff.1 found
      simp [← same, within, remaining_advance]
    · simp [same, -Option.map_map]

/-- The turns of a task take as many steps from those that it has left. -/
theorem remaining_foldl (schedule : List Nat) (state : State) (place : Nat) :
    (schedule.foldl (turn adapter block options) state).tasks[place]?.map Task.remaining =
      (state.tasks[place]?.map Task.remaining).map (· - schedule.count place) := by
  induction schedule generalizing state with
  | nil => simp [-Option.map_map]
  | cons first rest ih =>
    rw [List.foldl_cons, ih, remaining_turn, Option.map_map]
    congr 1
    funext left
    simp only [Function.comp_apply, List.count_cons, beq_iff_eq]
    omega

/-- **A complete schedule finishes every task.** -/
theorem finished_of_complete {files : List Path} {schedule : List Nat}
    (complete : IsComplete files.length schedule) (initial : FileSystem) :
    ∀ task ∈ (schedule.foldl (turn adapter block options) ⟨tasksOf files, initial⟩).tasks,
      ∃ result, task.stage = .finished result := by
  intro task member
  obtain ⟨place, found⟩ := List.getElem?_of_mem member
  have left : some task.remaining = (files[place]?.map fun _ => 2 - schedule.count place) := by
    rw [← Option.map_some, ← found, remaining_foldl]
    simp [tasksOf, Task.remaining, Function.comp_def]
  obtain ⟨file, there, spent⟩ := Option.map_eq_some_iff.1 left.symm
  have turns := complete place (List.getElem?_eq_some_iff.1 there).1
  cases stage : task.stage with
  | waiting => simp [Task.remaining, stage] at spent; omega
  | prepared prepared => simp [Task.remaining, stage] at spent; omega
  | finished result => exact ⟨result, rfl⟩

end Turns

end CommandLine

end RenderLink
