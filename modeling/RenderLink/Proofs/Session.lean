/-
**What a session of compilations reports.**

A compilation whose compiler fails answers with its error and reports nothing. Any other one
reports every tip and then every error, each once and in the compiler's order, and answers with the
module. `CompileRequest.Answers` says so for one compilation, with the condition under which a
report carries a code frame; a session is its compilations one after another.

Every compilation of a session names its own adapter, so the results hold for a compiler that
answers differently from call to call.

* `CompileRequest.reportsError`: what the report of an error shows.
* `CompileRequest.answers_outcome`: one compilation.
* `runSession_collecting`: a session, by induction on its requests.
* `session_collected`: **a session collects the reports of its compilations** in their order.
-/

import RenderLink.Session
import Mathlib.Data.List.Forall2

namespace RenderLink

namespace CompileRequest

/-! ### The answer to a request -/

/-- The options that the compiler is given: computed defaults with the overrides in place. -/
def merged (request : CompileRequest) : CompileOptions :=
  request.options.compileOptions request.source request.block request.file

/-- The report of a tip has its message and never a frame. -/
structure ReportsTip (request : CompileRequest) (tip : Diagnostic) (report : Report) : Prop where
  id : report.id = request.file.display
  message : report.message = tip.message
  frame : report.frame = none

/-- The report of an error has its message, and a frame exactly if the error has a range, the
compiler can show it and the merged options ask for ranges; then it is the compiler's frame of the
range in the template. -/
structure ReportsError (request : CompileRequest) (error : Diagnostic) (report : Report) :
    Prop where
  id : report.id = request.file.display
  message : report.message = error.message
  frame : ∀ frame, report.frame = some frame ↔
    request.adapter.compiler.supportsCodeFrames = true ∧
      request.merged.compilerOptions.outputSourceRange = true ∧
      ∃ message start stop, error = .ranged message start stop ∧
        frame = request.adapter.compiler.codeFrame request.source start stop

/-- The code of a module: the compiler's own for a live server, and else with hoisted references. -/
def linked (request : CompileRequest) (code : String) : String :=
  match request.options.liveServerBase with
  | some _ => code
  | none => (hoist request.adapter.callee code).code

/-- What a request is answered, and what is reported meanwhile. -/
inductive Answers (request : CompileRequest) : Except CompilerError String → List Report → Prop
  | failed {error : CompilerError} :
      request.adapter.compiler.compile request.merged = .error error →
      Answers request (.error error) []
  | compiled {output : TemplateOutput} {tips errors : List Report} :
      request.adapter.compiler.compile request.merged = .ok output →
      List.Forall₂ request.ReportsTip output.tips tips →
      List.Forall₂ request.ReportsError output.errors errors →
      Answers request
        (.ok (request.linked output.code ++ "\n" ++ "export \x7b render, staticRenderFns \x7d"))
        (tips ++ errors)

/-! ### One compilation -/

/-- Whether the reports of a request carry frames. -/
def frames (request : CompileRequest) : Bool :=
  request.adapter.compiler.supportsCodeFrames &&
    request.merged.compilerOptions.outputSourceRange

theorem reportsTip (request : CompileRequest) (tip : Diagnostic) :
    request.ReportsTip tip (Adapter.tipReport request.file.display tip) :=
  ⟨rfl, rfl, rfl⟩

theorem reportsError (request : CompileRequest) (error : Diagnostic) :
    request.ReportsError error
      (request.adapter.errorReport request.file.display request.source request.frames error) := by
  cases error with
  | plain message =>
    exact ⟨rfl, rfl, fun frame => by simp [Adapter.errorReport]⟩
  | ranged message start stop =>
    refine ⟨rfl, rfl, fun frame => ?_⟩
    cases shows : request.adapter.compiler.supportsCodeFrames <;>
      cases asks : request.merged.compilerOptions.outputSourceRange <;>
        simp [Adapter.errorReport, frames, shows, asks, eq_comm]

/-- What a request is answered, and what is reported meanwhile. -/
def outcome (request : CompileRequest) : Except CompilerError String × List Report :=
  match request.adapter.compile request.source request.block request.file request.options with
  | .ok compilation => (.ok compilation.text, compilation.reports)
  | .error error => (.error error, [])

theorem compile_eq (request : CompileRequest) :
    request.adapter.compile request.source request.block request.file request.options =
      (request.adapter.compiler.compile request.merged).map
        (request.adapter.finish request.options request.merged) := rfl

/-- The module of an output is its linked code with the export statement on a line of its own. -/
theorem finish_text (request : CompileRequest) (output : TemplateOutput) :
    (request.adapter.finish request.options request.merged output).text =
      request.linked output.code ++ "\n" ++ exportStatement := by
  unfold Adapter.finish linked ResolvedOptions.isLiveServer
  cases request.options.liveServerBase <;> rfl

/-- The reports of an output are those of its tips and then those of its errors. -/
theorem finish_reports (request : CompileRequest) (output : TemplateOutput) :
    (request.adapter.finish request.options request.merged output).reports =
      output.tips.map (Adapter.tipReport request.file.display) ++
        output.errors.map
          (request.adapter.errorReport request.file.display request.source request.frames) := by
  unfold Adapter.finish
  cases request.options.isLiveServer <;> rfl

/-- One compilation answers its request. -/
theorem answers_outcome (request : CompileRequest) :
    request.Answers request.outcome.1 request.outcome.2 := by
  cases ran : request.adapter.compiler.compile request.merged with
  | error error =>
    have failed : request.outcome = (.error error, []) := by
      simp only [outcome, compile_eq, ran, Except.map]
    rw [failed]
    exact .failed ran
  | ok output =>
    have compiled : request.outcome =
        ((.ok (request.adapter.finish request.options request.merged output).text),
          (request.adapter.finish request.options request.merged output).reports) := by
      simp only [outcome, compile_eq, ran, Except.map]
    rw [compiled, finish_text, finish_reports]
    exact .compiled ran
      (List.forall₂_map_right_iff.2 (List.forall₂_same.2 fun tip _ => request.reportsTip tip))
      (List.forall₂_map_right_iff.2 (List.forall₂_same.2 fun error _ => request.reportsError error))

/-! ### Sessions -/

/-- The step of a session that compiles a request and collects its reports. -/
def collecting (request : CompileRequest) : SessionStep :=
  .compile { request with sink := .collecting }

/-- One step answers with the outcome of its request and collects the reports of it. -/
theorem run_collecting (request : CompileRequest) (sinks : Sinks) :
    ∃ events, request.collecting.run sinks =
      (.compiled request.outcome.1 events (sinks.collected ++ request.outcome.2).length,
        { sinks with collected := sinks.collected ++ request.outcome.2 }) := by
  unfold collecting outcome
  simp only [SessionStep.run]
  cases request.adapter.compile request.source request.block request.file request.options with
  | error error => exact ⟨[], by simp⟩
  | ok compilation => exact ⟨compilation.events .collecting, rfl⟩

end CompileRequest

open CompileRequest

/-- The sinks after a session, and its answers. -/
theorem runSession_collecting (sinks : Sinks) (requests : List CompileRequest) :
    (runSession sinks (requests.map collecting)).2 =
        { sinks with collected := sinks.collected ++ requests.flatMap fun request =>
          request.outcome.2 } ∧
      (runSession sinks (requests.map collecting)).1.length = requests.length ∧
      ∀ (place : Nat) (request : CompileRequest), requests[place]? = some request →
        ∃ events, (runSession sinks (requests.map collecting)).1[place]? =
          some (SessionAnswer.compiled request.outcome.1 events
            (sinks.collected ++ (requests.take (place + 1)).flatMap fun request =>
              request.outcome.2).length) := by
  induction requests generalizing sinks with
  | nil => simp [runSession]
  | cons request rest ih =>
    obtain ⟨events, step⟩ := request.run_collecting sinks
    obtain ⟨final, length, answers⟩ :=
      ih { sinks with collected := sinks.collected ++ request.outcome.2 }
    simp only [List.map_cons, runSession, step]
    refine ⟨by simp [final], by simp [length], fun place later found => ?_⟩
    cases place with
    | zero =>
      obtain rfl : request = later := by simpa using found
      exact ⟨events, by simp⟩
    | succ place =>
      obtain ⟨events, answer⟩ := answers place later (by simpa using found)
      exact ⟨events, by simpa using answer⟩

/-- **A session collects the reports of its compilations.** Whatever the compilers do, every request
is answered by its module or its error, and has its reports collected behind those of the requests
before it; nothing else is kept. -/
theorem session_collected (sinks : Sinks) (requests : List CompileRequest) :
    ∃ outcomes : List (Except CompilerError String × List Report),
      List.Forall₂ (fun request outcome => request.Answers outcome.1 outcome.2)
        requests outcomes ∧
      (runSession sinks (requests.map collecting)).2 =
        { sinks with collected := sinks.collected ++ outcomes.flatMap Prod.snd } ∧
      (runSession sinks (requests.map collecting)).1.length = requests.length ∧
      ∀ (place : Nat) (outcome : Except CompilerError String × List Report),
        outcomes[place]? = some outcome →
        ∃ events, (runSession sinks (requests.map collecting)).1[place]? =
          some (SessionAnswer.compiled outcome.1 events
            (sinks.collected ++ (outcomes.take (place + 1)).flatMap Prod.snd).length) := by
  obtain ⟨final, length, answers⟩ := runSession_collecting sinks requests
  refine ⟨requests.map outcome, ?_, ?_, length, fun place outcome found => ?_⟩
  · exact List.forall₂_map_right_iff.2
      (List.forall₂_same.2 fun request _ => request.answers_outcome)
  · rw [final, List.flatMap_map]
  · rw [List.getElem?_map, Option.map_eq_some_iff] at found
    obtain ⟨request, found, rfl⟩ := found
    obtain ⟨events, answer⟩ := answers place request found
    exact ⟨events, by rw [answer, ← List.map_take, List.flatMap_map]⟩

end RenderLink
