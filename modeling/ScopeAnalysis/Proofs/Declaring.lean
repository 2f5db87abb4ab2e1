import ScopeAnalysis.Proofs.Frames
import ScopeAnalysis.Proofs.TakenKeys
import ScopeAnalysis.Proofs.Visits

/-
  What the nodes of a program declare.

  Key definitions include:
    * `PassM.Declares`
    * `Visit.calls`

  Key theorems include:
    * `PassM.declares_enterNode`
    * `Pass.yields_exitNode`
    * `reached_of_visits`

  A node declares the same whether or not a report fails,
  since what it opens behind its declarations is not one of
  them.
-/

------------------------------------------------------------
-- Entering A Node
------------------------------------------------------------

namespace ScopeAnalysis

/- What a node opens declares nothing. -/
theorem Node.calls_openings
    (node : Node)
    (r s : Registry) :
    s.calls (node.openings r) = [] := by
  unfold openings
  cases node.kind with
  | classDecl decl => rfl
  | methodDecl decl =>
      simp only
      split
      · rfl
      · rfl
  | closedConditional conditional =>
      simp only
      split
      · rfl
      · rfl
  | _ => rfl

/- Entering a node yields what the node declares. -/
theorem Frame.yields_enter
    (f : Frame)
    (node : Node) :
    f.registry.Yields
      (f.registry.calls node.declarations)
      (f.enter node).registry := by
  have hAll :=
    f.registry.yields_afterOps
      (node.declarations ++ node.openings f.registry)
  rwa [Registry.calls_append, node.calls_openings,
    List.append_nil] at hAll

namespace PassM

/-
  An action declares what a history declares, whether or not
  it fails.
-/
def Declares
    (action : PassM Unit)
    (ops : List RegistryOp) : Prop :=
  ∀ p : Pass,
    action.Ensures p
      (fun _ q =>
        p.registry.Yields (p.registry.calls ops) q.registry)
      (fun q =>
        p.registry.Yields (p.registry.calls ops) q.registry)

/- A node of any kind declares its declarations. -/
theorem declares_enterNode
    (node : Node) :
    Declares (enterNode node) node.declarations := by
  intro p
  have hEnter := p.frame.yields_enter node
  refine (leadsTo_enterNode node p).mono ?_ ?_
  · intro _ q hq
    rw [← hq] at hEnter
    exact hEnter
  · rintro q (hq | hq)
    · rw [hq]
      exact p.registry.yields_afterOps node.declarations
    · rw [hq]
      exact hEnter

end PassM

end ScopeAnalysis

------------------------------------------------------------
-- Leaving A Node
------------------------------------------------------------

namespace ScopeAnalysis

variable {r : Registry}
variable {calls : List DeclareCall}

/- Leaving a node declares nothing. -/
theorem Pass.yields_exitNode
    {p : Pass}
    (h : r.Yields calls p.registry)
    (node : Node) :
    r.Yields calls (p.exitNode node).registry := by
  have hFrame := p.frame_exitNode node
  have hLeave : r.Yields calls (p.frame.leave node).registry :=
    Frame.keeps_leave (fun _ hs => hs.exit) h node
  rw [← hFrame] at hLeave
  exact hLeave

end ScopeAnalysis

------------------------------------------------------------
-- Declarations Of Visits
------------------------------------------------------------

namespace ScopeAnalysis

/- What is declared in a visit, and how it is answered. -/
def Visit.calls (v : Visit) : List DeclareCall :=
  v.before.registry.calls v.node.declarations

theorem Visit.yields_after
    (v : Visit) :
    v.before.registry.Yields v.calls v.after.registry :=
  (PassM.declares_enterNode v.node v.before).after

/- An event declares what the visit it starts declares. -/
theorem yields_afterEvent
    (p : Pass)
    (event : Event) :
    p.registry.Yields
      ((event.visitsAt p).flatMap Visit.calls)
      (p.afterEvent event).registry := by
  have hNone := Registry.Yields.refl p.registry
  cases event with
  | nodeEntered node =>
      simp only [Event.visitsAt, List.flatMap_cons,
        List.flatMap_nil, List.append_nil]
      exact Visit.yields_after ⟨node, p⟩
  | programEntered program => exact hNone
  | nodeLeft node => exact Pass.yields_exitNode hNone node
  | programLeft program => exact hNone

/- Events declare what their visits declare, in order. -/
theorem yields_afterEvents
    (p : Pass)
    (events : List Event) :
    p.registry.Yields
      ((visitsFrom p events).flatMap Visit.calls)
      (p.afterEvents events).registry := by
  induction events generalizing p with
  | nil => exact Registry.Yields.refl p.registry
  | cons event events ih =>
      rw [visitsFrom, List.flatMap_append]
      exact (yields_afterEvent p event).trans
        (ih (p.afterEvent event))

/-
  A visit finds the registry as the declarations of all
  visits before it have left it, and a sink that has not
  failed.
-/
theorem reached_of_visits
    {options : Options}
    {program : Program}
    {earlier later : List Visit}
    {v : Visit}
    (h : visits options program = earlier ++ v :: later) :
    v.before.Writing ∧
      Registry.initial.Yields
        (earlier.flatMap Visit.calls)
        v.before.registry := by
  rcases visitsFrom_split h with
    ⟨before, rest, hSplit, hEarlier, hBefore⟩
  have hEvents :
      ∀ event ∈ before,
        PassM.Diagnosing (PassM.listener.hear event) := by
    intro event hEvent
    apply PassM.diagnosing_hearAll program.items
    rw [hSplit]
    exact List.mem_append_left _ hEvent
  rw [hBefore, ← hEarlier]
  exact
    ⟨(PassM.runOn_hearAll hEvents
        (writing_entered options program)).2,
      yields_afterEvents (.entered options program) before⟩

end ScopeAnalysis
