import ScopeAnalysis.Pass.Walk

/-
  Histories of a pass.

  Key definitions include:
    * `Move`
    * `Move.perform`
    * `Pass.writingTo`
    * `Pass.afterMove`
    * `Pass.afterMoves`

  A move is one use of a handler, of a walk or of a whole
  analysis.  A history is any sequence of moves, whether or
  not they stem from a program; it goes on after a move that
  failed.

  A sink that failed once may well take the next text, and a
  move ends with its first write that fails.  So every move
  of a history is given a sink of its own.
-/

------------------------------------------------------------
-- Moves
------------------------------------------------------------

namespace ScopeAnalysis

/- One use of a pass. -/
inductive Move where
| enterClass (decl : ClassDecl) (span : Span)
| exitClass
| declareField (decl : FieldDecl) (span : Span)
| enterMethod (decl : MethodDecl) (span : Span)
| exitMethod
| defineVariables (definition : VarDef) (span : Span)
| checkCall (expr : Expr) (span : Span)
| checkAssignment (assignment : Assignment) (span : Span)
| enterConditional (conditional : Conditional) (span : Span)
| exitConditional (conditional : Conditional)
| enterLoop (span : Span)
| exitLoop
| enterNode (node : Node)
| exitNode (node : Node)
| walk (node : Node)
| enterProgram (program : Program)
| exitProgram
| analyze (program : Program)

namespace Move

/- The action of a move. -/
def perform : Move → PassM Unit
| .enterClass decl span => PassM.enterClass decl span
| .exitClass => PassM.change Pass.exitClass
| .declareField decl span => PassM.declareField decl span
| .enterMethod decl span => PassM.enterMethod decl span
| .exitMethod => PassM.change Pass.exitMethod
| .defineVariables definition span =>
    PassM.defineVariables definition span
| .checkCall expr span =>
    (fun _ => ()) <$> PassM.checkCall expr span
| .checkAssignment assignment span =>
    PassM.checkAssignment assignment span
| .enterConditional conditional span =>
    PassM.change fun p => p.enterConditional conditional span
| .exitConditional conditional =>
    PassM.change fun p => p.exitConditional conditional
| .enterLoop span => PassM.change fun p => p.enterLoop span
| .exitLoop => PassM.change Pass.exitLoop
| .enterNode node => PassM.enterNode node
| .exitNode node => PassM.change fun p => p.exitNode node
| .walk node => ScopeAnalysis.walk PassM.listener node
| .enterProgram program =>
    PassM.change fun p => p.enterProgram program
| .exitProgram => PassM.exitProgram
| .analyze program => PassM.analyze program

end Move

end ScopeAnalysis

------------------------------------------------------------
-- Histories
------------------------------------------------------------

namespace ScopeAnalysis

namespace Pass

/- The same pass, which writes to another sink from now on. -/
def writingTo
    (p : Pass)
    (sink : Sink) : Pass :=
  { p with reporter := { p.reporter with sink := sink } }

/- The state after a move over a sink, failed or not. -/
def afterMove
    (p : Pass)
    (step : Sink × Move) : Pass :=
  (step.2.perform.runOn (p.writingTo step.1)).2

/- The state after a history. -/
def afterMoves
    (p : Pass)
    (steps : List (Sink × Move)) : Pass :=
  steps.foldl afterMove p

end Pass

end ScopeAnalysis
