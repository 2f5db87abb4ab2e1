import ScopeAnalysis.Proofs.Unlimited

/-
  The visits of an analysis, one for each node in pre-order.

  Key definitions include:
    * `Listener.hearAll`
    * `Pass.afterEvents`
    * `Node.preorder`
    * `Visit`
    * `Visit.raised`
    * `visits`

  Key theorems include:
    * `walk_eq_hearAll`
    * `visitsFrom_split`
    * `nodes_visits`
    * `runPass_visits`

  A visit is a node together with the pass that is about to
  enter it.  The diagnostics of an analysis are those raised
  at its visits, one visit after the other.
-/

------------------------------------------------------------
-- Walks As Events
------------------------------------------------------------

namespace ScopeAnalysis

variable {m : Type → Type} [Monad m]

/- Hear events one after the other. -/
def Listener.hearAll
    (listener : Listener m) : List Event → m Unit
| [] => pure ()
| event :: events => do
    listener.hear event
    listener.hearAll events

theorem hearAll_append
    [LawfulMonad m]
    (listener : Listener m)
    (first second : List Event) :
    listener.hearAll (first ++ second) =
      listener.hearAll first >>= fun _ =>
        listener.hearAll second := by
  induction first with
  | nil => simp [Listener.hearAll]
  | cons event events ih =>
      simp [Listener.hearAll, ih]

mutual

/- A walk hears the events of its tree. -/
theorem walk_eq_hearAll
    [LawfulMonad m]
    (listener : Listener m) :
    (node : Node) →
      walk listener node = listener.hearAll node.events
| ⟨kind, span, children⟩ => by
    have hChildren := walkAll_eq_hearAll listener children
    rw [walk, Node.events, Listener.hearAll, hearAll_append,
      hChildren]
    simp [Listener.hear, Listener.hearAll]

theorem walkAll_eq_hearAll
    [LawfulMonad m]
    (listener : Listener m) :
    (nodes : List Node) →
      walkAll listener nodes =
        listener.hearAll (Node.eventsOfAll nodes)
| [] => by
    rw [walkAll, Node.eventsOfAll, Listener.hearAll]
| node :: nodes => by
    rw [walkAll, Node.eventsOfAll, hearAll_append,
      walk_eq_hearAll listener node,
      walkAll_eq_hearAll listener nodes]

end

end ScopeAnalysis

------------------------------------------------------------
-- Hearing Events
------------------------------------------------------------

namespace ScopeAnalysis

namespace Pass

/- The pass after an event. -/
def afterEvent
    (p : Pass)
    (event : Event) : Pass :=
  ((PassM.listener.hear event).runOn p).2

/- The pass after events in order. -/
def afterEvents
    (p : Pass)
    (events : List Event) : Pass :=
  events.foldl afterEvent p

@[simp] theorem afterEvents_nil
    (p : Pass) :
    p.afterEvents [] = p :=
  rfl

@[simp] theorem afterEvents_cons
    (p : Pass)
    (event : Event)
    (events : List Event) :
    p.afterEvents (event :: events) =
      (p.afterEvent event).afterEvents events :=
  rfl

end Pass

namespace PassM

mutual

/- All that is heard of a tree is diagnosing. -/
theorem diagnosing_hear :
    (node : Node) →
      ∀ event ∈ node.events,
        Diagnosing (listener.hear event)
| ⟨kind, span, children⟩ => by
    intro event hEvent
    rw [Node.events] at hEvent
    rcases List.mem_cons.mp hEvent with rfl | hEvent
    · exact diagnosing_enterNode _
    · rcases List.mem_append.mp hEvent with hEvent | hLast
      · exact diagnosing_hearAll children event hEvent
      · rw [List.mem_singleton] at hLast
        rw [hLast]
        exact diagnosing_change (Pass.silent_exitNode _)

theorem diagnosing_hearAll :
    (nodes : List Node) →
      ∀ event ∈ Node.eventsOfAll nodes,
        Diagnosing (listener.hear event)
| [] => by
    intro event hEvent
    rw [Node.eventsOfAll] at hEvent
    cases hEvent
| node :: nodes => by
    intro event hEvent
    rw [Node.eventsOfAll] at hEvent
    rcases List.mem_append.mp hEvent with hFirst | hRest
    · exact diagnosing_hear node event hFirst
    · exact diagnosing_hearAll nodes event hRest

end

/- A writing pass hears an event and goes on writing. -/
theorem Diagnosing.runOn_hear
    {event : Event}
    (hEvent : Diagnosing (listener.hear event))
    {p : Pass}
    (hp : p.Writing) :
    (listener.hear event).runOn p =
        (.ok (), p.afterEvent event) ∧
      (p.afterEvent event).Writing := by
  rcases hEvent.proceeds hp with ⟨_, q, hRun, hq, _⟩
  have hAfter : p.afterEvent event = q := by
    rw [Pass.afterEvent, hRun]
  rw [hAfter]
  exact ⟨hRun, hq⟩

/- A writing pass hears all events and goes on writing. -/
theorem runOn_hearAll
    {events : List Event}
    (hEvents :
      ∀ event ∈ events, Diagnosing (listener.hear event))
    {p : Pass}
    (hp : p.Writing) :
    (listener.hearAll events).runOn p =
        (.ok (), p.afterEvents events) ∧
      (p.afterEvents events).Writing := by
  induction events generalizing p with
  | nil => exact ⟨rfl, hp⟩
  | cons event events ih =>
      rcases List.forall_mem_cons.mp hEvents with
        ⟨hFirst, hRest⟩
      rcases hFirst.runOn_hear hp with ⟨hRun, hAfter⟩
      rw [Listener.hearAll, runOn_bind, hRun,
        Pass.afterEvents_cons]
      exact ih hRest hAfter

end PassM

end ScopeAnalysis

------------------------------------------------------------
-- Visits
------------------------------------------------------------

namespace ScopeAnalysis

/- A node and the pass that is about to enter it. -/
structure Visit where
  node : Node
  before : Pass

namespace Visit

/- The pass that has entered the node. -/
def after (v : Visit) : Pass :=
  ((PassM.enterNode v.node).runOn v.before).2

/- The diagnostics raised in entering the node. -/
def raised (v : Visit) : List Diagnostic :=
  v.after.diagnostics.drop v.before.diagnostics.length

end Visit

/- The visit that an event starts, if it enters a node. -/
def Event.visitsAt
    (p : Pass) : Event → List Visit
| .nodeEntered node => [⟨node, p⟩]
| .programEntered _ => []
| .nodeLeft _ => []
| .programLeft _ => []

/- The visits along events, from a pass before them. -/
def visitsFrom
    (p : Pass) : List Event → List Visit
| [] => []
| event :: events =>
    event.visitsAt p ++
      visitsFrom (p.afterEvent event) events

/- The pass that is about to walk the trees of a program. -/
def Pass.entered
    (options : Options)
    (program : Program) : Pass :=
  ((Pass.start options .unlimited).note
    (.analysisStarted
      program.source
      program.items.length)).enterProgram program

/- The visits of an analysis whose sink never fails. -/
def visits
    (options : Options)
    (program : Program) : List Visit :=
  visitsFrom (.entered options program)
    (Node.eventsOfAll program.items)

/- A visit begins where the events before it have led. -/
theorem visitsFrom_split
    {p : Pass}
    {events : List Event}
    {earlier later : List Visit}
    {v : Visit}
    (h : visitsFrom p events = earlier ++ v :: later) :
    ∃ first rest,
      events = first ++ .nodeEntered v.node :: rest ∧
        visitsFrom p first = earlier ∧
          v.before = p.afterEvents first := by
  induction events generalizing p earlier with
  | nil =>
      rw [visitsFrom] at h
      simp at h
  | cons event events ih =>
      -- An event that starts no visit belongs to the first.
      have hSkip :
          event.visitsAt p = [] →
            ∃ first rest,
              event :: events =
                  first ++ .nodeEntered v.node :: rest ∧
                visitsFrom p first = earlier ∧
                  v.before = p.afterEvents first := by
        intro hNone
        rw [visitsFrom, hNone, List.nil_append] at h
        rcases ih h with ⟨first, rest, hSplit, hFirst, hv⟩
        refine ⟨event :: first, rest, ?_, ?_, hv⟩
        · rw [hSplit, List.cons_append]
        · rw [visitsFrom, hNone, hFirst, List.nil_append]
      cases event with
      | nodeEntered node =>
          cases earlier with
          | nil =>
              simp only [visitsFrom, Event.visitsAt,
                List.singleton_append, List.nil_append,
                List.cons.injEq] at h
              rcases h with ⟨rfl, _⟩
              exact ⟨[], events, rfl, rfl, rfl⟩
          | cons u earlier =>
              simp only [visitsFrom, Event.visitsAt,
                List.cons_append, List.cons.injEq] at h
              rcases h with ⟨rfl, h⟩
              rcases ih h with
                ⟨first, rest, hSplit, hFirst, hv⟩
              refine
                ⟨.nodeEntered node :: first, rest, ?_, ?_,
                  hv⟩
              · rw [hSplit, List.cons_append]
              · rw [visitsFrom, hFirst]
                rfl
      | programEntered program => exact hSkip rfl
      | nodeLeft node => exact hSkip rfl
      | programLeft program => exact hSkip rfl

end ScopeAnalysis

------------------------------------------------------------
-- Pre-Order
------------------------------------------------------------

namespace ScopeAnalysis

namespace Node

mutual

/- The nodes of a tree, each before its children. -/
def preorder : Node → List Node
| ⟨kind, span, children⟩ =>
    ⟨kind, span, children⟩ :: preorderAll children

def preorderAll : List Node → List Node
| [] => []
| node :: nodes => node.preorder ++ preorderAll nodes

end

end Node

/- The node that an event enters, if it enters one. -/
def Event.entered? : Event → Option Node
| .nodeEntered node => some node
| .programEntered _ => none
| .nodeLeft _ => none
| .programLeft _ => none

mutual

theorem entered_events :
    (node : Node) →
      node.events.filterMap Event.entered? = node.preorder
| ⟨kind, span, children⟩ => by
    have hChildren := entered_eventsOfAll children
    rw [Node.events, Node.preorder]
    simp [Event.entered?, hChildren]

theorem entered_eventsOfAll :
    (nodes : List Node) →
      (Node.eventsOfAll nodes).filterMap Event.entered? =
        Node.preorderAll nodes
| [] => by
    rw [Node.eventsOfAll, Node.preorderAll,
      List.filterMap_nil]
| node :: nodes => by
    rw [Node.eventsOfAll, Node.preorderAll,
      List.filterMap_append, entered_events node,
      entered_eventsOfAll nodes]

end

theorem nodes_visitsFrom
    (p : Pass)
    (events : List Event) :
    (visitsFrom p events).map Visit.node =
      events.filterMap Event.entered? := by
  induction events generalizing p with
  | nil => rfl
  | cons event events ih =>
      rw [visitsFrom, List.map_append, ih]
      cases event <;> rfl

/- Every node is visited once, in pre-order. -/
theorem nodes_visits
    (options : Options)
    (program : Program) :
    (visits options program).map Visit.node =
      Node.preorderAll program.items := by
  rw [visits, nodes_visitsFrom, entered_eventsOfAll]

end ScopeAnalysis

------------------------------------------------------------
-- Diagnostics
------------------------------------------------------------

namespace ScopeAnalysis

/- What a visit raises comes behind what was raised. -/
theorem Visit.diagnostics_after
    {v : Visit}
    (hBefore : v.before.Writing) :
    v.after.diagnostics =
      v.before.diagnostics ++ v.raised := by
  rcases (PassM.diagnosing_enterNode v.node).proceeds
      hBefore with
    ⟨_, q, hRun, _, hGrows⟩
  have hAfter : v.after = q := by
    rw [Visit.after, hRun]
  rcases hGrows.diagnostics with ⟨new, hNew⟩
  rw [Visit.raised, hAfter, ← hNew, List.drop_left]

/- One event raises what the visit it starts raises. -/
theorem Pass.Writing.diagnostics_afterEvent
    {p : Pass}
    (hp : p.Writing)
    (event : Event) :
    (p.afterEvent event).diagnostics =
      p.diagnostics ++
        (event.visitsAt p).flatMap Visit.raised := by
  cases event with
  | nodeEntered node =>
      simp only [Event.visitsAt, List.flatMap_cons,
        List.flatMap_nil, List.append_nil]
      exact @Visit.diagnostics_after ⟨node, p⟩ hp
  | programEntered program =>
      simp [Event.visitsAt]
      rfl
  | nodeLeft node =>
      have hReporter :=
        (Pass.silent_exitNode node).reporter_eq p
      simp only [Event.visitsAt, List.flatMap_nil,
        List.append_nil]
      exact congrArg Reporter.diagnostics hReporter
  | programLeft program =>
      have hReport :
          p.afterEvent (.programLeft program) = p.finish :=
        congrArg Prod.snd hp.writeReport_eq
      simp [hReport, Event.visitsAt]

theorem Pass.Writing.diagnostics_afterEvents
    {p : Pass}
    (hp : p.Writing)
    {events : List Event}
    (hEvents :
      ∀ event ∈ events,
        PassM.Diagnosing (PassM.listener.hear event)) :
    (p.afterEvents events).diagnostics =
      p.diagnostics ++
        (visitsFrom p events).flatMap Visit.raised := by
  induction events generalizing p with
  | nil => simp [visitsFrom]
  | cons event events ih =>
      rcases List.forall_mem_cons.mp hEvents with
        ⟨hFirst, hRest⟩
      have hAfter := (hFirst.runOn_hear hp).2
      rw [afterEvents_cons, ih hAfter hRest,
        hp.diagnostics_afterEvent, visitsFrom,
        List.flatMap_append, List.append_assoc]

theorem writing_entered
    (options : Options)
    (program : Program) :
    (Pass.entered options program).Writing :=
  ⟨rfl, rfl, rfl⟩

/-
  An analysis whose sink never fails ends well.  Its
  diagnostics are those of its visits, in pre-order.
-/
theorem runPass_visits
    (options : Options)
    (program : Program) :
    (runPass options .unlimited program).1 = .ok () ∧
      (runPass options .unlimited program).2.diagnostics =
        (visits options program).flatMap Visit.raised := by
  rcases runPass_unlimited options program with
    ⟨q, hGather, _, hRun⟩
  have hp := writing_entered options program
  have hEvents := PassM.diagnosing_hearAll program.items
  have hWalk :
      (PassM.gather program).runOn
          (.start options .unlimited) =
        (PassM.listener.hearAll
          (Node.eventsOfAll program.items)).runOn
          (.entered options program) := by
    rw [← walkAll_eq_hearAll]
    rfl
  rw [hWalk, (PassM.runOn_hearAll hEvents hp).1] at hGather
  have hq : Pass.afterEvents _ _ = q :=
    congrArg Prod.snd hGather
  rw [hRun]
  refine ⟨rfl, ?_⟩
  rw [Pass.diagnostics_finish, ← hq,
    hp.diagnostics_afterEvents hEvents]
  rfl

end ScopeAnalysis
