/-
**Where reports go.**

Reports are collected, or observed by the host as they come, or written to the log. The first two
keep them in the order in which they arrive.

* `deliver_collected`, `deliver_observed`: what a delivery adds to each.
-/

import RenderLink.Adapter

namespace RenderLink

/-- A receiver of reports. -/
inductive Sink where
  | collecting
  | observing
  | logging
  deriving DecidableEq, Repr

/-- The event by which a report is logged: its frame stands below its message. -/
def Report.event (report : Report) : Log.Event :=
  { level := .error
    target := "template_linker_compiler::sink"
    message := report.id ++ ": " ++ report.message ++
      match report.frame with
      | some frame => "\n" ++ frame
      | none => "" }

/-- The reports that receivers have kept. -/
structure Sinks where
  collected : List Report := []
  observed : List Report := []
  deriving DecidableEq, Repr

namespace Sinks

/-- Hands reports to a receiver. -/
def deliver (sinks : Sinks) (sink : Sink) (reports : List Report) : Sinks :=
  match sink with
  | .collecting => { sinks with collected := sinks.collected ++ reports }
  | .observing => { sinks with observed := sinks.observed ++ reports }
  | .logging => sinks

/-- The events that a delivery causes. -/
def events (sink : Sink) (reports : List Report) : List Log.Event :=
  match sink with
  | .logging => reports.map Report.event
  | _ => []

/-- A delivery adds to the collected reports when it is for them. -/
theorem deliver_collected (sinks : Sinks) (sink : Sink) (reports : List Report) :
    (sinks.deliver sink reports).collected =
      sinks.collected ++ if sink = .collecting then reports else [] := by
  cases sink <;> simp [deliver]

/-- A delivery adds to the observed reports when it is for them. -/
theorem deliver_observed (sinks : Sinks) (sink : Sink) (reports : List Report) :
    (sinks.deliver sink reports).observed =
      sinks.observed ++ if sink = .observing then reports else [] := by
  cases sink <;> simp [deliver]

end Sinks

def Compilation.events (compilation : Compilation) (sink : Sink) : List Log.Event :=
  compilation.compiled :: Sinks.events sink compilation.reports ++ compilation.hoisted.toList

end RenderLink
