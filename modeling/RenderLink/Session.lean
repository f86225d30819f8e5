/-
**Sessions.**

A session is a sequence of steps that share one set of receivers: compilations, single reports, and
looks at what has been kept. Each compilation names the adapter that it uses.

* `runSession_append`: a session goes on from where its beginning left off.
-/

import RenderLink.Sink

namespace RenderLink

/-- The compilation of a block. -/
structure CompileRequest where
  adapter : Adapter
  source : String
  block : TemplateBlock
  file : Path
  options : ResolvedOptions
  sink : Sink

/-- A step of a session. -/
inductive SessionStep where
  | compile (request : CompileRequest)
  | report (report : Report) (sink : Sink)
  | showCollected
  | takeCollected
  | showObserved

/-- What a step of a session answers. -/
inductive SessionAnswer where
  /-- The module or the error of a compilation, its events, and the number of reports collected. -/
  | compiled (result : Except CompilerError String) (events : List Log.Event) (collected : Nat)
  /-- The events of a report, and the number of reports collected. -/
  | reported (events : List Log.Event) (collected : Nat)
  | reports (reports : List Report)

namespace SessionStep

/-- The answer of a step, and the receivers after it. -/
def run (sinks : Sinks) : SessionStep → SessionAnswer × Sinks
  | .compile request =>
    match request.adapter.compile request.source request.block request.file request.options with
    | .ok compilation =>
      let after := sinks.deliver request.sink compilation.reports
      (.compiled (.ok compilation.text) (compilation.events request.sink) after.collected.length,
        after)
    | .error error => (.compiled (.error error) [] sinks.collected.length, sinks)
  | .report single sink =>
    let after := sinks.deliver sink [single]
    (.reported (Sinks.events sink [single]) after.collected.length, after)
  | .showCollected => (.reports sinks.collected, sinks)
  | .takeCollected => (.reports sinks.collected, { sinks with collected := [] })
  | .showObserved => (.reports sinks.observed, sinks)

end SessionStep

/-- The answers of the steps of a session, and the receivers after them. -/
def runSession (sinks : Sinks) : List SessionStep → List SessionAnswer × Sinks
  | [] => ([], sinks)
  | step :: rest =>
    let (answer, after) := step.run sinks
    let (answers, final) := runSession after rest
    (answer :: answers, final)

/-- A session goes on from where its beginning left off. -/
theorem runSession_append (sinks : Sinks) (first second : List SessionStep) :
    runSession sinks (first ++ second) =
      ((runSession sinks first).1 ++ (runSession (runSession sinks first).2 second).1,
        (runSession (runSession sinks first).2 second).2) := by
  induction first generalizing sinks with
  | nil => rfl
  | cons step rest ih => simp [runSession, ih]

end RenderLink
