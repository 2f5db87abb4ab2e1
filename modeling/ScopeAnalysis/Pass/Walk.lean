import ScopeAnalysis.Pass.Handlers
import ScopeAnalysis.Traversal

/-
  Walking a program with a pass.

  Key definitions include:
    * `Pass.enterProgram`
    * `PassM.exitProgram`
    * `PassM.listener`
    * `PassM.analyze`
-/

------------------------------------------------------------
-- Programs
------------------------------------------------------------

namespace ScopeAnalysis

/- Take note of the source that a report will name. -/
def Pass.enterProgram
    (p : Pass)
    (program : Program) : Pass :=
  { p with source := program.source }

namespace PassM

/- Write the report on the program that was entered last. -/
def exitProgram : PassM Unit :=
  attempt fun p => p.writeReport p.source

/- A pass listens to a walk with its handlers. -/
def listener : Listener PassM where
  enterProgram program :=
    change fun p => p.enterProgram program
  exitProgram _ := exitProgram
  enter := enterNode
  exit node := change fun p => p.exitNode node

/- Analyze a program, which ends with the report. -/
def analyze (program : Program) : PassM Unit := do
  change fun p =>
    p.note
      (.analysisStarted
        program.source program.items.length)
  walkProgram listener program

end PassM

end ScopeAnalysis
