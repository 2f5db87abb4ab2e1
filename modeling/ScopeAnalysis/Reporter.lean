import ScopeAnalysis.Diagnostic
import ScopeAnalysis.Report
import ScopeAnalysis.Sink

/-
  Writing diagnostics and reports to a sink.

  Key definitions include:
    * `Reporter`
    * `Reporter.emit`
    * `Reporter.writeReport`

  A diagnostic is written as soon as it is raised.  It is
  kept only if its whole line reached the sink, so the kept
  diagnostics are those a reader of the sink can see.
-/

------------------------------------------------------------
-- Reporters
------------------------------------------------------------

namespace ScopeAnalysis

/- A sink and the diagnostics written to it, in order. -/
structure Reporter where
  sink : Sink
  diagnostics : List Diagnostic

namespace Reporter

/- A reporter that has not written anything. -/
def ofSink (sink : Sink) : Reporter :=
  ⟨sink, []⟩

/- The line of a diagnostic. -/
def lineOf (d : Diagnostic) : String :=
  d.message ++ "\n"

/- Write the line of a diagnostic, then keep it. -/
def emit
    (r : Reporter)
    (d : Diagnostic) :
    Except SinkError Unit × Reporter :=
  match r.sink.write (lineOf d) with
  | (.ok (), sink) =>
      (.ok (), ⟨sink, r.diagnostics ++ [d]⟩)
  | (.error e, sink) =>
      (.error e, { r with sink := sink })

/- Write the report on a registry, then flush the sink. -/
def writeReport
    (r : Reporter)
    (source : String)
    (registry : Registry) :
    Except SinkError Unit × Reporter :=
  match r.sink.write (Report.text source registry) with
  | (.ok (), sink) =>
      (sink.flush, { r with sink := sink })
  | (.error e, sink) =>
      (.error e, { r with sink := sink })

end Reporter

end ScopeAnalysis
