import ScopeAnalysis.Traversal

/-
  A listener that records what it hears.

  Key definitions include:
    * `Recorder.Stopped`
    * `Recorder.record`
    * `Recorder.all`
    * `Recorder.nodesOnly`

  A recorder may have a limit.  It then takes that many
  events and fails at the next.
-/

------------------------------------------------------------
-- Recorders
------------------------------------------------------------

namespace ScopeAnalysis

namespace Recorder

/- The number of events after which a recorder stopped. -/
structure Stopped where
  events : Nat
deriving DecidableEq

/- What is said about a recorder that stopped. -/
def Stopped.message (s : Stopped) : String :=
  "stopped at event " ++ toString s.events

/- Actions on the events recorded so far. -/
abbrev RecorderM :=
  ExceptT Stopped (StateM (Array Event))

/- Record an event, unless the limit is reached. -/
def record
    (limit : Option Nat)
    (event : Event) : RecorderM Unit := do
  let events ← get
  if limit = some events.size then
    throw ⟨events.size⟩
  else
    set (events.push event)

/- Record every event. -/
def all (limit : Option Nat) : Listener RecorderM where
  enterProgram p := record limit (.programEntered p)
  exitProgram p := record limit (.programLeft p)
  enter n := record limit (.nodeEntered n)
  exit n := record limit (.nodeLeft n)

/- Record the nodes and pass over the program itself. -/
def nodesOnly
    (limit : Option Nat) : Listener RecorderM :=
  { all limit with
    enterProgram := fun _ => pure ()
    exitProgram := fun _ => pure () }

/- Walk a program with a recorder that heard nothing yet. -/
def run
    (recorder : Listener RecorderM)
    (program : Program) :
    Except Stopped Unit × Array Event :=
  (walkProgram recorder program).run.run #[]

end Recorder

end ScopeAnalysis
