/-
**The command line.**

The arguments that are no options name template files. Each file is a task of two steps: it is read
and compiled, and then its module is written beside it, unless there was a diagnostic. The outcome
of a run is its log, its exit code and, when it failed, the messages of its error.

* `exitCode_eq_zero_iff`: the exit code is zero exactly when there is no error.
-/

import RenderLink.Adapter
import RenderLink.Bundle
import RenderLink.Config
import RenderLink.Log.Filter
import RenderLink.Sink

namespace RenderLink

namespace CommandLine

/-- How the program is called. -/
def usage : String := "usage: template-linker [--functional] <file>..."

/-- Whether the arguments ask for functional templates. -/
def isFunctional (arguments : List String) : Bool := arguments.contains "--functional"

/-- The files that the arguments name. -/
def files (arguments : List String) : List Path :=
  (arguments.filter fun argument => !"--".isPrefixOf argument).map Path.ofString

/-- An event of the program itself. -/
def event (level : Log.Level) (message : String) : Log.Event :=
  { level, target := "template_linker", message }

/-! ### One file -/

/-- A module that is ready to be written. -/
structure Module where
  output : Path
  text : String

/-- What reading and compiling a file leads to. -/
inductive Prepared where
  | ready (module : Module)
  /-- There were diagnostics, so nothing is to be written. -/
  | rejected (reports : List Report)
  /-- The messages of an error and of its causes. -/
  | failed (chain : List String)

/-- What became of a file. -/
inductive Result where
  | written (output : Path)
  | rejected (reports : List Report)
  | failed (chain : List String)

/-- The path of the module of a file: `App.vue` becomes `App.vue.js`. -/
def outputPath (file : Path) : Path := file.append ".js"

/-- Compiles the text of a file, and the events of that. -/
def prepareText (adapter : Adapter) (block : TemplateBlock) (options : ResolvedOptions)
    (file : Path) (source : String) : Prepared × List Log.Event :=
  match adapter.compile source block file options with
  | .error error => (.failed error.chain, [])
  | .ok compilation =>
    (if compilation.reports.isEmpty then .ready ⟨outputPath file, compilation.text⟩
      else .rejected compilation.reports,
      compilation.events .collecting)

variable {m : Type → Type} [Monad m]

/-- The first step of a file's task: reads and compiles it. -/
def prepare (disk : Disk m) (adapter : Adapter) (block : TemplateBlock)
    (options : ResolvedOptions) (file : Path) : m (Prepared × List Log.Event) := do
  match ← disk.canonicalize file with
  | .error cause =>
    return (.failed ["Template " ++ file.display ++ " does not exist", cause.message], [])
  | .ok canonical =>
    match ← disk.readText canonical with
    | .error cause =>
      return (.failed ["Failed to read " ++ canonical.display, cause.message], [])
    | .ok source => return prepareText adapter block options canonical source

/-- The second step of a file's task: writes its module. -/
def publish (disk : Disk m) : Prepared → m Result
  | .rejected reports => return .rejected reports
  | .failed chain => return .failed chain
  | .ready module => do
    match ← disk.writeText module.output module.text with
    | .ok () => return .written module.output
    | .error cause =>
      return .failed ["Failed to write " ++ module.output.display, cause.message]

/-- Messages joined by colons. -/
def joinChain (chain : List String) : String := ": ".intercalate chain

/-- The events that tell what became of a file. -/
def Result.events (file : Path) : Result → List Log.Event
  | .written output => [event .info ("Wrote " ++ output.display)]
  | .rejected reports => reports.map Report.event
  | .failed chain => [event .error (file.display ++ ": " ++ joinChain chain)]

def Result.isWritten : Result → Bool
  | .written _ => true
  | _ => false

/-! ### All files -/

/-- Runs the tasks of files one after another: what became of each, and all events. -/
def compileFiles (disk : Disk m) (adapter : Adapter) (block : TemplateBlock)
    (options : ResolvedOptions) : List Path → m (List Result × List Log.Event)
  | [] => return ([], [])
  | file :: rest => do
    let (prepared, events) ← prepare disk adapter block options file
    let result ← publish disk prepared
    let (results, later) ← compileFiles disk adapter block options rest
    return (result :: results, events ++ result.events file ++ later)

structure Outcome where
  events : List Log.Event
  /-- The messages of the error with which the run ends, and of its causes. -/
  error : Option (List String)

/-- The error of a run, if any file failed. -/
def failure? (results : List Result) : Option (List String) :=
  let failed := (results.filter fun result => !result.isWritten).length
  if failed = 0 then none
  else some [toString failed ++ " of " ++ toString results.length ++ " templates failed to compile"]

/-- The event with which a run begins. -/
def startEvent (count : Nat) (options : ResolvedOptions) : Log.Event :=
  event .info ("Compiling " ++ toString count ++ " templates under " ++ options.root.display ++
    " (" ++ (if options.isLiveServer then "live server" else "static link") ++ " mode)")

/-- Runs the program on its arguments and variables. -/
def run (disk : Disk m) (environment : Config.Environment) (arguments : List String) :
    m Outcome := do
  let files := files arguments
  if files.isEmpty then return { events := [], error := some [usage] }
  match ← Config.ofEnvironment disk environment with
  | .error error => return { events := [], error := some error.chain }
  | .ok config =>
    let start := startEvent files.length config.options
    match ← Bundle.load disk config.bundle with
    | .error error =>
      let context := "Failed to load template compiler from " ++ config.bundle.display
      return { events := [start], error := some (context :: error.chain) }
    | .ok bundle =>
      let adapter : Adapter := { compiler := bundle.compiler }
      let block : TemplateBlock := ⟨isFunctional arguments⟩
      let (results, events) ← compileFiles disk adapter block config.options files
      return { events := start :: events, error := failure? results }

/-! ### What the user sees -/

/-- The text of the filter that the variables ask for. -/
def filterText (environment : Config.Environment) : String :=
  (environment "RUST_LOG").getD "info,template_linker=debug"

/-- A cause below an error, with further lines below its beginning. -/
def causeLines (opening : String) (cause : String) : List String :=
  let indent := String.ofList (List.replicate opening.length ' ')
  match cause.splitOn "\n" with
  | [] => []
  | first :: others => (opening ++ first) :: others.map (indent ++ ·)

/-- A number at the right end of five places. -/
def placeNumber (n : Nat) : String :=
  let digits := toString n
  String.ofList (List.replicate (5 - digits.length) ' ') ++ digits ++ ": "

/-- The lines that report an error with its causes, which are numbered when there are several. -/
def errorLines : List String → List String
  | [] => []
  | error :: causes =>
    ("Error: " ++ error).splitOn "\n" ++
      match causes with
      | [] => []
      | [cause] => ["", "Caused by:"] ++ causeLines "    " cause
      | causes =>
        ["", "Caused by:"] ++
          (causes.mapIdx fun place cause => causeLines (placeNumber place) cause).flatten

/-- The lines of the events that a filter lets through. -/
def eventLines (filter : Log.Filter) (events : List Log.Event) : List String :=
  (events.filter filter.allows).flatMap fun event => event.text.splitOn "\n"

/-- The lines of a run on the standard error stream: remarks about the filter, the log, and the
error with which the run ends. -/
def Outcome.lines (outcome : Outcome) (environment : Config.Environment) : List String :=
  let text := filterText environment
  (Log.Filter.remarks text).flatMap (fun remark => remark.splitOn "\n") ++
    eventLines (Log.Filter.ofText text) outcome.events ++
    errorLines (outcome.error.getD [])

def Outcome.exitCode (outcome : Outcome) : Nat := if outcome.error.isNone then 0 else 1

/-- The exit code is zero exactly when there is no error. -/
theorem Outcome.exitCode_eq_zero_iff (outcome : Outcome) :
    outcome.exitCode = 0 ↔ outcome.error = none := by
  cases found : outcome.error <;> simp [exitCode, found]

end CommandLine

end RenderLink
