import ScopeAnalysis.LogEvent
import ScopeAnalysis.Options
import ScopeAnalysis.Reporter

/-
  The state of a running analysis and its basic steps.

  Key definitions include:
    * `OpenMethods`
    * `Pass`
    * `Pass.openScope`
    * `Pass.closeScope`
    * `Pass.declareIn`
    * `Pass.declareHere`
    * `Pass.report`
    * `Pass.writeReport`

  Most steps always lead to another state.  Only a step that
  writes can fail, and then the state is still there: it
  shows what was done before and what was written.
-/

------------------------------------------------------------
-- Open Methods
------------------------------------------------------------

namespace ScopeAnalysis

/-
  Whether each open method has a scope, innermost first.  A
  method that was declared before opens none, so leaving it
  must not close one.
-/
structure OpenMethods where
  flags : List Bool
deriving DecidableEq

namespace OpenMethods

def empty : OpenMethods :=
  ⟨[]⟩

/- Enter a method that opened a scope, or that did not. -/
def enter
    (o : OpenMethods)
    (openedScope : Bool) : OpenMethods :=
  ⟨openedScope :: o.flags⟩

/-
  Leave the innermost method and tell whether it has a
  scope.  Where no method is open, there is no scope.
-/
def exit (o : OpenMethods) : Bool × OpenMethods :=
  (o.flags.headD false, ⟨o.flags.tail⟩)

end OpenMethods

end ScopeAnalysis

------------------------------------------------------------
-- Passes
------------------------------------------------------------

namespace ScopeAnalysis

/- All that a running analysis knows. -/
structure Pass where
  registry : Registry
  reporter : Reporter
  source : String
  openMethods : OpenMethods
  options : Options
  log : Array LogEvent

namespace Pass

/- A pass that has not seen anything yet. -/
def start
    (options : Options)
    (sink : Sink) : Pass where
  registry := .initial
  reporter := .ofSink sink
  source := ""
  openMethods := .empty
  options := options
  log := #[]

/- The diagnostics raised and written so far. -/
def diagnostics (p : Pass) : List Diagnostic :=
  p.reporter.diagnostics

/- The text that reached the sink so far. -/
def output (p : Pass) : String :=
  p.reporter.sink.text

/- Note an event down in the log. -/
def note
    (p : Pass)
    (event : LogEvent) : Pass :=
  { p with log := p.log.push event }

end Pass

end ScopeAnalysis

------------------------------------------------------------
-- Scopes And Declarations
------------------------------------------------------------

namespace ScopeAnalysis

namespace Pass

/- Open a scope. -/
def openScope
    (p : Pass)
    (id : ScopeId) : Pass :=
  { p.note (.scopeEntered id (p.registry.depth + 1)) with
    registry := p.registry.enter id }

/- Close the innermost scope and tell which it was. -/
def closeScope (p : Pass) : Option ScopeId × Pass :=
  match p.registry.exit with
  | (none, registry) =>
      ( none,
        { p.note .globalExitIgnored with
          registry := registry } )
  | (some id, registry) =>
      ( some id,
        { p.note (.scopeExited id registry.depth) with
          registry := registry } )

/- Close the innermost scope, whichever it is. -/
def leaveScope (p : Pass) : Pass :=
  p.closeScope.2

/- Declare a symbol in a scope. -/
def declareIn
    (p : Pass)
    (scope : ScopeId)
    (key : String)
    (symbol : Symbol)
    (position : Position) : Declaration × Pass :=
  let (outcome, registry) :=
    p.registry.declare scope key symbol position
  ( outcome,
    { p.note (.declaring key scope) with
      registry := registry } )

/- Declare a symbol in the innermost open scope. -/
def declareHere
    (p : Pass)
    (key : String)
    (symbol : Symbol)
    (position : Position) : Declaration × Pass :=
  p.declareIn p.registry.current key symbol position

/- Remember whether an entered method opened a scope. -/
def rememberMethod
    (p : Pass)
    (openedScope : Bool) : Pass :=
  { p with
    openMethods := p.openMethods.enter openedScope }

/- Forget the innermost method and tell about its scope. -/
def forgetMethod (p : Pass) : Bool × Pass :=
  ( p.openMethods.exit.1,
    { p with openMethods := p.openMethods.exit.2 } )

end Pass

end ScopeAnalysis

------------------------------------------------------------
-- Output
------------------------------------------------------------

namespace ScopeAnalysis

namespace Pass

/- Raise a diagnostic, which is noted before it is written. -/
def report
    (p : Pass)
    (d : Diagnostic) : Except SinkError Unit × Pass :=
  let (outcome, reporter) := p.reporter.emit d
  ( outcome,
    { p.note (.diagnosticRaised d) with
      reporter := reporter } )

/- Write the report on all symbols declared so far. -/
def writeReport
    (p : Pass)
    (source : String) : Except SinkError Unit × Pass :=
  let (outcome, reporter) :=
    p.reporter.writeReport source p.registry
  (outcome, { p with reporter := reporter })

end Pass

end ScopeAnalysis
