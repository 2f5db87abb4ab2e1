import ScopeAnalysis.Syntax.Node

/-
  Walking syntax trees.

  Key definitions include:
    * `Listener`
    * `walk`
    * `walkProgram`
    * `Event`
    * `Program.events`
    * `Listener.hear`

  A walk enters every node before its children and leaves it
  after them, and it brackets the whole with the program.
  What a listener does is a matter of its monad: a monad
  with failures ends the walk at the first one.

  The events of a program are the same walk as a list.
-/

------------------------------------------------------------
-- Walks
------------------------------------------------------------

namespace ScopeAnalysis

/- What is done at the four kinds of places of a walk. -/
structure Listener (m : Type → Type) where
  enterProgram : Program → m Unit
  exitProgram : Program → m Unit
  enter : Node → m Unit
  exit : Node → m Unit

variable {m : Type → Type} [Monad m]

mutual

/- Walk a tree. -/
def walk
    (listener : Listener m) : Node → m Unit
| ⟨kind, span, children⟩ => do
    listener.enter ⟨kind, span, children⟩
    walkAll listener children
    listener.exit ⟨kind, span, children⟩

/- Walk trees one after the other. -/
def walkAll
    (listener : Listener m) : List Node → m Unit
| [] => pure ()
| node :: nodes => do
    walk listener node
    walkAll listener nodes

end

/- Walk a program. -/
def walkProgram
    (listener : Listener m)
    (program : Program) : m Unit := do
  listener.enterProgram program
  walkAll listener program.items
  listener.exitProgram program

end ScopeAnalysis

------------------------------------------------------------
-- Events
------------------------------------------------------------

namespace ScopeAnalysis

/- A place that a walk passes. -/
inductive Event where
| programEntered (program : Program)
| nodeEntered (node : Node)
| nodeLeft (node : Node)
| programLeft (program : Program)

namespace Node

mutual

/- The events of a tree in order. -/
def events : Node → List Event
| ⟨kind, span, children⟩ =>
    .nodeEntered ⟨kind, span, children⟩ ::
      (eventsOfAll children ++
        [.nodeLeft ⟨kind, span, children⟩])

/- The events of trees one after the other. -/
def eventsOfAll : List Node → List Event
| [] => []
| node :: nodes => node.events ++ eventsOfAll nodes

end

end Node

/- The events of a program in order. -/
def Program.events (p : Program) : List Event :=
  .programEntered p ::
    (Node.eventsOfAll p.items ++ [.programLeft p])

variable {m : Type → Type} [Monad m]

/- What a listener does at one event. -/
def Listener.hear
    (listener : Listener m) : Event → m Unit
| .programEntered program => listener.enterProgram program
| .nodeEntered node => listener.enter node
| .nodeLeft node => listener.exit node
| .programLeft program => listener.exitProgram program

end ScopeAnalysis
