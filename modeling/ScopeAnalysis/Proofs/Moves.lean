import ScopeAnalysis.Pass.Move
import ScopeAnalysis.Proofs.Frames
import ScopeAnalysis.Proofs.Lasting

/-
  What holds after any history of moves.

  Key definitions include:
    * `Pass.Enduring`

  Key theorems include:
    * `Pass.Lasting.enduring`
    * `Pass.enduring_of_registry`
    * `Pass.Enduring.afterMoves`

  Every handler is what entering or leaving some node does,
  and a walk consists of these.  A property that entering
  and leaving hand on therefore endures all moves, if single
  checks of calls and whole analyses do not break it either,
  and if it does not depend on the sink.
-/

------------------------------------------------------------
-- Enduring Properties
------------------------------------------------------------

namespace ScopeAnalysis

/- A property that no move of a pass breaks. -/
structure Pass.Enduring (keeps : Pass → Prop) : Prop where
  enterNode :
    ∀ node, PassM.HandsOn keeps (PassM.enterNode node)
  exitNode :
    ∀ node p, keeps p → keeps (p.exitNode node)
  checkCall :
    ∀ expr span,
      PassM.HandsOn keeps
        ((fun _ => ()) <$> PassM.checkCall expr span)
  enterProgram :
    ∀ program p, keeps p → keeps (p.enterProgram program)
  startAnalysis :
    ∀ source count p,
      keeps p → keeps (p.note (.analysisStarted source count))
  writeReport :
    ∀ source p, keeps p → keeps (p.writeReport source).2
  writingTo :
    ∀ sink p, keeps p → keeps (p.writingTo sink)

namespace Pass

variable {keeps : Pass → Prop}

/- What lasts endures, if it also outlasts an analysis. -/
theorem Lasting.enduring
    (h : Lasting keeps)
    (hProgram :
      ∀ program p,
        keeps p → keeps (p.enterProgram program))
    (hReport :
      ∀ source p, keeps p → keeps (p.writeReport source).2)
    (hWritingTo :
      ∀ sink p, keeps p → keeps (p.writingTo sink)) :
    Enduring keeps where
  enterNode := PassM.handsOn_enterNode h
  exitNode := fun node _ => h.exitNode node
  checkCall := by
    intro expr span p hp
    rw [PassM.ensures_map]
    exact PassM.ensures_checkCall_of h.report
      (fun _ _ q hq => h.note _ q hq) expr span hp
  enterProgram := hProgram
  startAnalysis := fun _ _ p hp => h.note _ p hp
  writeReport := hReport
  writingTo := hWritingTo

end Pass

end ScopeAnalysis

------------------------------------------------------------
-- Properties Of Registries
------------------------------------------------------------

namespace ScopeAnalysis

/-
  A property of the registry endures if neither what a node
  declares, nor what it opens behind that, nor the closing of
  a scope breaks it.
-/
theorem Pass.enduring_of_registry
    {keeps : Registry → Prop}
    (hDeclare :
      ∀ (node : Node) (r : Registry),
        keeps r → keeps (r.afterOps node.declarations))
    (hOpen :
      ∀ (node : Node) (r : Registry),
        keeps r →
          keeps
            (r.afterOps
              (node.declarations ++ node.openings r)))
    (hExit : ∀ r : Registry, keeps r → keeps r.exit.2) :
    Enduring fun p => keeps p.registry where
  enterNode := by
    intro node p hp
    have hEntered : keeps (p.frame.enter node).registry :=
      hOpen node p.registry hp
    refine (PassM.leadsTo_enterNode node p).mono ?_ ?_
    · intro _ q hq
      rw [← hq] at hEntered
      exact hEntered
    · rintro q (hq | hq)
      · rw [hq]
        exact hDeclare node p.registry hp
      · rw [hq]
        exact hEntered
  exitNode := by
    intro node p hp
    have hLeft : keeps (p.frame.leave node).registry :=
      Frame.keeps_leave hExit hp node
    rw [← p.frame_exitNode] at hLeft
    exact hLeft
  checkCall := by
    intro expr span p hp
    rw [PassM.ensures_map]
    refine PassM.ensures_checkCall_of ?_
      (fun _ _ _ hq => hq) expr span hp
    intro d q hq
    rwa [Pass.registry_report]
  enterProgram := fun _ _ hp => hp
  startAnalysis := fun _ _ _ hp => hp
  writeReport := fun _ _ hp => hp
  writingTo := fun _ _ hp => hp

end ScopeAnalysis

------------------------------------------------------------
-- Moves
------------------------------------------------------------

namespace ScopeAnalysis

namespace Pass

variable {keeps : Pass → Prop}

theorem Enduring.handsOn_walkAll
    (h : Enduring keeps)
    (nodes : List Node) :
    PassM.HandsOn keeps (walkAll PassM.listener nodes) :=
  PassM.handsOn_walkAll h.enterNode h.exitNode nodes

theorem Enduring.handsOn_exitProgram
    (h : Enduring keeps) :
    PassM.HandsOn keeps PassM.exitProgram := by
  intro p hp
  have hReport := h.writeReport p.source p hp
  exact PassM.ensures_attempt_of (fun _ => hReport) hReport

theorem Enduring.handsOn_analyze
    (h : Enduring keeps)
    (program : Program) :
    PassM.HandsOn keeps (PassM.analyze program) := by
  have hStart :=
    PassM.handsOn_change
      (h.startAnalysis program.source program.items.length)
  have hEnter :=
    PassM.handsOn_change (h.enterProgram program)
  unfold PassM.analyze walkProgram
  apply hStart.bind
  apply hEnter.bind
  exact (h.handsOn_walkAll program.items).bind
    h.handsOn_exitProgram

/- A move hands on what endures. -/
theorem Enduring.handsOn_perform
    (h : Enduring keeps)
    (move : Move) :
    PassM.HandsOn keeps move.perform := by
  -- All loops are left alike, and so are all methods.
  have hLoop :=
    PassM.handsOn_change
      (h.exitNode ⟨.closedLoop, default, []⟩)
  have hMethod :=
    PassM.handsOn_change
      (h.exitNode
        ⟨.methodDecl (.bare "" "" none), default, []⟩)
  cases move with
  | enterClass decl span =>
      exact h.enterNode ⟨.classDecl decl, span, []⟩
  | exitClass => exact hLoop
  | declareField decl span =>
      exact h.enterNode ⟨.fieldDecl decl, span, []⟩
  | enterMethod decl span =>
      exact h.enterNode ⟨.methodDecl decl, span, []⟩
  | exitMethod => exact hMethod
  | defineVariables definition span =>
      exact h.enterNode ⟨.varDef definition, span, []⟩
  | checkCall expr span => exact h.checkCall expr span
  | checkAssignment assignment span =>
      exact h.enterNode ⟨.assignment assignment, span, []⟩
  | enterConditional conditional span =>
      exact h.enterNode
        ⟨.closedConditional conditional, span, []⟩
  | exitConditional conditional =>
      exact PassM.handsOn_change
        (h.exitNode
          ⟨.closedConditional conditional, default, []⟩)
  | enterLoop span =>
      exact h.enterNode ⟨.closedLoop, span, []⟩
  | exitLoop => exact hLoop
  | enterNode node => exact h.enterNode node
  | exitNode node =>
      exact PassM.handsOn_change (h.exitNode node)
  | walk node =>
      exact PassM.handsOn_walk h.enterNode h.exitNode node
  | enterProgram program =>
      exact PassM.handsOn_change (h.enterProgram program)
  | exitProgram => exact h.handsOn_exitProgram
  | analyze program => exact h.handsOn_analyze program

/- So does a move over any sink. -/
theorem Enduring.afterMove
    (h : Enduring keeps)
    (step : Sink × Move)
    {p : Pass}
    (hp : keeps p) :
    keeps (p.afterMove step) :=
  (h.handsOn_perform step.2 _ (h.writingTo step.1 p hp)).after

/- What endures holds after every history. -/
theorem Enduring.afterMoves
    (h : Enduring keeps)
    (steps : List (Sink × Move))
    {p : Pass}
    (hp : keeps p) :
    keeps (p.afterMoves steps) := by
  induction steps generalizing p with
  | nil => exact hp
  | cons step steps ih => exact ih (h.afterMove step hp)

end Pass

end ScopeAnalysis

------------------------------------------------------------
-- Options
------------------------------------------------------------

namespace ScopeAnalysis

/- No move changes the options. -/
theorem Pass.enduring_options
    (options : Options) :
    Enduring fun p => p.options = options :=
  (lasting_settings
    (fun settings => settings.2 = options)).enduring
      (fun _ _ hp => hp) (fun _ _ hp => hp)
      (fun _ _ hp => hp)

end ScopeAnalysis
