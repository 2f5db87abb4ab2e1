import ScopeAnalysis.Pass.Walk

/-
  Whole analyses.

  Key definitions include:
    * `Analysis`
    * `AnalysisFailure`
    * `runPass`
    * `analyzeTo`
    * `analyzeWith`
    * `analyze`
    * `languageName`

  An analysis walks a program with a fresh pass.  Its output
  is the lines of all diagnostics and then the report.
-/

------------------------------------------------------------
-- Results
------------------------------------------------------------

namespace ScopeAnalysis

/- What an analysis found, stored and wrote. -/
structure Analysis where
  diagnostics : List Diagnostic
  registry : Registry
  output : String

/- What a pass has found, stored and written so far. -/
def Pass.result (p : Pass) : Analysis where
  diagnostics := p.diagnostics
  registry := p.registry
  output := p.output

/- An analysis that the sink put an end to. -/
structure AnalysisFailure where
  cause : SinkError
  sink : Sink

namespace AnalysisFailure

/- What is said about an analysis that a failure ended. -/
def messageOf (cause : SinkError) : String :=
  "failed to write analysis output: " ++ cause.message

/- What is said about a failed analysis. -/
def message (f : AnalysisFailure) : String :=
  messageOf f.cause

end AnalysisFailure

end ScopeAnalysis

------------------------------------------------------------
-- Analyses
------------------------------------------------------------

namespace ScopeAnalysis

/- How a fresh pass over a program ends, and in what state. -/
def runPass
    (options : Options)
    (sink : Sink)
    (program : Program) : Except SinkError Unit × Pass :=
  (PassM.analyze program).runOn (.start options sink)

/- Analyze a program and write the output to a sink. -/
def analyzeTo
    (options : Options)
    (sink : Sink)
    (program : Program) :
    Except AnalysisFailure Analysis :=
  match runPass options sink program with
  | (.ok (), p) => .ok p.result
  | (.error cause, p) => .error ⟨cause, p.reporter.sink⟩

/-
  Analyze a program and collect the output, which is read
  from the bytes when all of them are there.
-/
def analyzeWith
    (options : Options)
    (program : Program) :
    Except AnalysisFailure Analysis :=
  match runPass options .unlimited program with
  | (.ok (), p) =>
      .ok { p.result with
        output := p.reporter.sink.decoded }
  | (.error cause, p) => .error ⟨cause, p.reporter.sink⟩

/- Analyze a program with standard options. -/
def analyze
    (program : Program) :
    Except AnalysisFailure Analysis :=
  analyzeWith .standard program

end ScopeAnalysis

------------------------------------------------------------
-- Names
------------------------------------------------------------

namespace ScopeAnalysis

/- The language that programs are written in. -/
def languageName : String :=
  "Japy"

/- The version of the analysis. -/
def versionText : String :=
  "0.1.0"

end ScopeAnalysis
