import ScopeAnalysis.Diagnostic
import ScopeAnalysis.ScopeId

/-
  Events that an analysis notes down while it runs.

  Key definitions include:
    * `LogEvent`
    * `LogEvent.level`
    * `LogEvent.message`
    * `LogEvent.line`
-/

------------------------------------------------------------
-- Events
------------------------------------------------------------

namespace ScopeAnalysis

/- How much an event matters. -/
inductive LogLevel where
| trace
| debug
| warn
deriving DecidableEq

/- The word that opens a line of the log. -/
def LogLevel.text : LogLevel → String
| .trace => "TRACE"
| .debug => "DEBUG"
| .warn => "WARN"

/- Something that happened during an analysis. -/
inductive LogEvent where
| analysisStarted (source : String) (nodes : Nat)
| scopeEntered (id : ScopeId) (depth : Nat)
| scopeExited (id : ScopeId) (depth : Nat)
| globalExitIgnored
| declaring (key : String) (scope : ScopeId)
| variableRedefined (name storedAs : String)
| targetNotFound (key : String) (scope : ScopeId)
| lengthUnknown (target : String)
| diagnosticRaised (diagnostic : Diagnostic)
deriving DecidableEq

namespace LogEvent

/- The level of an event. -/
def level : LogEvent → LogLevel
| .globalExitIgnored => .warn
| .declaring .. => .trace
| .targetNotFound .. => .trace
| .analysisStarted .. => .debug
| .scopeEntered .. => .debug
| .scopeExited .. => .debug
| .variableRedefined .. => .debug
| .lengthUnknown .. => .debug
| .diagnosticRaised .. => .debug

/- What the log says about an event. -/
def message : LogEvent → String
| .analysisStarted source nodes =>
    "analyzing " ++ source ++ " (" ++ toString nodes ++
      " top-level nodes)"
| .scopeEntered id depth =>
    "enter scope " ++ id.text ++
      " (depth " ++ toString depth ++ ")"
| .scopeExited id depth =>
    "exit scope " ++ id.text ++
      " (depth " ++ toString depth ++ ")"
| .globalExitIgnored =>
    "attempt to exit the global scope ignored"
| .declaring key scope =>
    "declare " ++ key ++ " in " ++ scope.text
| .variableRedefined name storedAs =>
    "variable " ++ name ++ " redefined, kept as " ++
      storedAs
| .targetNotFound key scope =>
    "call target " ++ key ++ " not found in " ++ scope.text
| .lengthUnknown target =>
    "no array length recorded for " ++ target ++
      ", range check skipped"
| .diagnosticRaised diagnostic =>
    "diagnostic " ++ diagnostic.code.name ++
      " at " ++ diagnostic.position.text

/- The line of an event in the log. -/
def line (e : LogEvent) : String :=
  e.level.text ++ " " ++ e.message

end LogEvent

end ScopeAnalysis
