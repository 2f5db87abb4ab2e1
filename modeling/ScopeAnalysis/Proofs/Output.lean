import ScopeAnalysis.Proofs.Lasting
import ScopeAnalysis.Proofs.Visits

/-
  The output of a whole analysis.

  Key theorems include:
    * `source_gather`
    * `analyzeWith_output`

  Three things change while an analysis goes on: what the
  sink holds, the diagnostics that are kept, and the
  registry.  The first two stay in step, nothing declares
  once the report is written, and the source that the report
  names is the one that was entered.
-/

------------------------------------------------------------
-- Output
------------------------------------------------------------

namespace ScopeAnalysis

/- The source that was entered is the one reported on. -/
theorem source_gather
    (options : Options)
    (program : Program) :
    ((PassM.gather program).runOn
        (.start options .unlimited)).2.source =
      program.source := by
  have hWalk :
      (PassM.gather program).runOn
          (.start options .unlimited) =
        (walkAll PassM.listener program.items).runOn
          (.entered options program) :=
    rfl
  have hSettings :=
    PassM.settings_walkAll program.items
      (.entered options program)
  rw [hWalk]
  exact congrArg Prod.fst hSettings

/-
  An analysis always yields a result.  Its output is the
  message of each diagnostic with a line end, in the order
  of the diagnostics, and then the report on the registry;
  these are the bytes that were written, one for one.
-/
theorem analyzeWith_output
    (options : Options)
    (program : Program) :
    ∃ a,
      analyzeWith options program = .ok a ∧
        a.output =
          String.join
              (a.diagnostics.map fun d =>
                d.message ++ "\n") ++
            Report.text program.source a.registry ∧
        (runPass options .unlimited
            program).2.reporter.sink.kept =
          a.output.toUTF8 := by
  rcases runPass_unlimited options program with
    ⟨q, hGather, hq, hRun⟩
  have hSource : q.source = program.source := by
    have hSource := source_gather options program
    rwa [hGather] at hSource
  have hOutput :
      q.finish.output =
        Reporter.linesText q.finish.diagnostics ++
          Report.text program.source q.finish.registry := by
    rw [hq.output_finish, hSource]
    rfl
  have hBytes :
      q.finish.reporter.sink.kept =
        q.finish.output.toUTF8 := by
    rw [hq.output_finish]
    exact hq.kept_finish
  have hAnalysis := analyzeWith_of_runPass hq hRun
  generalize q.finish = r at hRun hOutput hBytes hAnalysis
  refine ⟨r.result, hAnalysis, ?_, ?_⟩
  · simp only [Pass.result]
    exact hOutput
  · simp only [Pass.result, hRun]
    exact hBytes

end ScopeAnalysis
