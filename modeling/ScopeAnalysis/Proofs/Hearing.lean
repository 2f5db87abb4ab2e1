import ScopeAnalysis.Proofs.Findings
import ScopeAnalysis.Proofs.Moves

/-
  Events that are heard without a failure, over any sink.

  Key definitions include:
    * `Pass.Hears`
    * `Visit.violations`
    * `framesFrom`
    * `visitsOver`
    * `Program.frames`
    * `Program.lastFrame`

  Key theorems include:
    * `Pass.Hears.findings`
    * `Pass.Hears.frames`
    * `Pass.Hears.frame_eq`
    * `runPass_ok`

  Where nothing fails, all that the nodes are blamed for is
  raised and written, in pre-order.  The frames that the
  nodes are entered with can be told from the program.
-/

------------------------------------------------------------
-- Hearing
------------------------------------------------------------

namespace ScopeAnalysis

namespace Pass

/- A pass hears events and has not failed in the end. -/
def Hears
    (p : Pass)
    (events : List Event)
    (q : Pass) : Prop :=
  (PassM.listener.hearAll events).runOn p = (.ok (), q)

/- Who hears events hears the first and then the others. -/
theorem Hears.first
    {p q : Pass}
    {event : Event}
    {events : List Event}
    (h : p.Hears (event :: events) q) :
    (PassM.listener.hear event).runOn p =
        (.ok (), p.afterEvent event) ∧
      (p.afterEvent event).Hears events q := by
  rw [Hears, Listener.hearAll, PassM.runOn_bind] at h
  unfold afterEvent
  cases hFirst : (PassM.listener.hear event).runOn p with
  | mk outcome r =>
      rw [hFirst] at h
      cases outcome with
      | ok done => exact ⟨rfl, h⟩
      | error e => cases h

theorem Hears.eq_afterEvents
    {p q : Pass}
    {events : List Event}
    (h : p.Hears events q) :
    q = p.afterEvents events := by
  induction events generalizing p with
  | nil =>
      cases h
      rfl
  | cons event events ih =>
      rw [afterEvents_cons]
      exact ih h.first.2

end Pass

end ScopeAnalysis

------------------------------------------------------------
-- Findings
------------------------------------------------------------

namespace ScopeAnalysis

/- What the node of a visit is blamed for. -/
def Visit.violations (v : Visit) : List Diagnostic :=
  v.node.violations v.before.options v.before.registry

/- One event raises what its visit has to be blamed for. -/
theorem PassM.findings_of_hear
    {p q : Pass}
    {event : Event}
    (h : (listener.hear event).runOn p = (.ok (), q)) :
    q.findings =
      p.findings.add
        ((event.visitsAt p).flatMap Visit.violations) := by
  cases event with
  | nodeEntered node =>
      simp only [Event.visitsAt, List.flatMap_singleton]
      exact (reports_enterNode node p).of_ok h
  | programEntered program =>
      cases h
      simp only [Event.visitsAt, List.flatMap_nil,
        Findings.add_nil]
      rfl
  | nodeLeft node =>
      cases h
      simp only [Event.visitsAt, List.flatMap_nil,
        Findings.add_nil]
      exact p.findings_exitNode node
  | programLeft program =>
      have hSame := p.findings_writeReport p.source
      have hq : (p.writeReport p.source).2 = q :=
        congrArg Prod.snd h
      simp only [Event.visitsAt, List.flatMap_nil,
        Findings.add_nil]
      rw [← hq, hSame]

/- Events raise what their visits have to be blamed for. -/
theorem Pass.Hears.findings
    {p q : Pass}
    {events : List Event}
    (h : p.Hears events q) :
    q.findings =
      p.findings.add
        ((visitsFrom p events).flatMap
          Visit.violations) := by
  induction events generalizing p with
  | nil =>
      cases h
      simp [visitsFrom]
  | cons event events ih =>
      rcases h.first with ⟨hFirst, hRest⟩
      rw [ih hRest, PassM.findings_of_hear hFirst,
        Findings.add_append, visitsFrom,
        List.flatMap_append]

end ScopeAnalysis

------------------------------------------------------------
-- Enduring Properties
------------------------------------------------------------

namespace ScopeAnalysis

namespace Pass

variable {keeps : Pass → Prop}

/- An event leaves alone what endures. -/
theorem Enduring.afterEvent
    (h : Enduring keeps)
    (event : Event)
    {p : Pass}
    (hp : keeps p) :
    keeps (p.afterEvent event) := by
  cases event with
  | nodeEntered node => exact (h.enterNode node p hp).after
  | programEntered program =>
      exact h.enterProgram program p hp
  | nodeLeft node => exact h.exitNode node p hp
  | programLeft program =>
      exact (h.handsOn_exitProgram p hp).after

/- What endures holds at every visit. -/
theorem Enduring.of_mem_visitsFrom
    (h : Enduring keeps)
    {events : List Event}
    {p : Pass}
    (hp : keeps p)
    {v : Visit}
    (hv : v ∈ visitsFrom p events) :
    keeps v.before := by
  induction events generalizing p with
  | nil => cases hv
  | cons event events ih =>
      rcases List.mem_append.mp hv with hHere | hLater
      · cases event with
        | nodeEntered node =>
            rw [List.mem_singleton.mp hHere]
            exact hp
        | programEntered program => cases hHere
        | nodeLeft node => cases hHere
        | programLeft program => cases hHere
      · exact ih (h.afterEvent event hp) hLater

end Pass

end ScopeAnalysis

------------------------------------------------------------
-- Frames
------------------------------------------------------------

namespace ScopeAnalysis

namespace Frame

/- The frame after an event. -/
def afterEvent
    (f : Frame) : Event → Frame
| .nodeEntered node => f.enter node
| .nodeLeft node => f.leave node
| .programEntered _ => f
| .programLeft _ => f

/- The frame after events in order. -/
def afterEvents
    (f : Frame)
    (events : List Event) : Frame :=
  events.foldl afterEvent f

end Frame

/- The node that an event enters, with the frame before. -/
def Event.framesAt
    (f : Frame) : Event → List (Node × Frame)
| .nodeEntered node => [(node, f)]
| .programEntered _ => []
| .nodeLeft _ => []
| .programLeft _ => []

/- The nodes that events enter, with the frames before. -/
def framesFrom
    (f : Frame) : List Event → List (Node × Frame)
| [] => []
| event :: events =>
    event.framesAt f ++
      framesFrom (f.afterEvent event) events

/- Frames come with the nodes that events enter. -/
theorem nodes_framesFrom
    (f : Frame)
    (events : List Event) :
    (framesFrom f events).map Prod.fst =
      events.filterMap Event.entered? := by
  induction events generalizing f with
  | nil => rfl
  | cons event events ih =>
      rw [framesFrom, List.map_append, ih]
      cases event <;> rfl

/- A visit as far as frames go. -/
def Visit.framed (v : Visit) : Node × Frame :=
  (v.node, v.before.frame)

/- One event that does not fail changes the frame so. -/
theorem PassM.frame_of_hear
    {p q : Pass}
    {event : Event}
    (h : (listener.hear event).runOn p = (.ok (), q)) :
    q.frame = p.frame.afterEvent event := by
  cases event with
  | nodeEntered node =>
      exact Ensures.of_ok (leadsTo_enterNode node p) h
  | programEntered program =>
      cases h
      rfl
  | nodeLeft node =>
      cases h
      exact p.frame_exitNode node
  | programLeft program =>
      have hq : (p.writeReport p.source).2 = q :=
        congrArg Prod.snd h
      rw [← hq]
      rfl

namespace Pass

/- Events that do not fail change the frame so. -/
theorem Hears.frame_eq
    {p q : Pass}
    {events : List Event}
    (h : p.Hears events q) :
    q.frame = p.frame.afterEvents events := by
  induction events generalizing p with
  | nil =>
      cases h
      rfl
  | cons event events ih =>
      rcases h.first with ⟨hFirst, hRest⟩
      have hFrame := PassM.frame_of_hear hFirst
      rw [ih hRest, hFrame]
      rfl

/- Visits along events that do not fail find these frames. -/
theorem Hears.frames
    {p q : Pass}
    {events : List Event}
    (h : p.Hears events q) :
    (visitsFrom p events).map Visit.framed =
      framesFrom p.frame events := by
  induction events generalizing p with
  | nil => rfl
  | cons event events ih =>
      rcases h.first with ⟨hFirst, hRest⟩
      have hFrame := PassM.frame_of_hear hFirst
      rw [visitsFrom, framesFrom, List.map_append, ih hRest,
        hFrame]
      cases event with
      | nodeEntered node => rfl
      | programEntered program => rfl
      | nodeLeft node => rfl
      | programLeft program => rfl

end Pass

end ScopeAnalysis

------------------------------------------------------------
-- Whole Analyses
------------------------------------------------------------

namespace ScopeAnalysis

/- The pass that is about to walk a program, over a sink. -/
def Pass.enteredOver
    (options : Options)
    (sink : Sink)
    (program : Program) : Pass :=
  ((Pass.start options sink).note
    (.analysisStarted
      program.source
      program.items.length)).enterProgram program

/- The visits of an analysis over a sink. -/
def visitsOver
    (options : Options)
    (sink : Sink)
    (program : Program) : List Visit :=
  visitsFrom (.enteredOver options sink program)
    (Node.eventsOfAll program.items)

/- Without a limit these are the visits of an analysis. -/
theorem visitsOver_unlimited
    (options : Options)
    (program : Program) :
    visitsOver options .unlimited program =
      visits options program :=
  rfl

/- The nodes of a program, each with the frame before it. -/
def Program.frames
    (program : Program) : List (Node × Frame) :=
  framesFrom .initial (Node.eventsOfAll program.items)

/- A program's frames come with its nodes in pre-order. -/
theorem Program.nodes_frames
    (program : Program) :
    program.frames.map Prod.fst =
      Node.preorderAll program.items := by
  rw [frames, nodes_framesFrom, entered_eventsOfAll]

/- The frame that a program leads to. -/
def Program.lastFrame (program : Program) : Frame :=
  Frame.initial.afterEvents
    (Node.eventsOfAll program.items)

variable {options : Options}
variable {sink : Sink}
variable {program : Program}

/- An analysis that ends well has heard the whole program. -/
theorem hears_of_runPass
    (h : (runPass options sink program).1 = .ok ()) :
    ∃ q,
      (Pass.enteredOver options sink program).Hears
          (Node.eventsOfAll program.items) q ∧
        (runPass options sink program).2.findings =
            q.findings ∧
          (runPass options sink program).2.frame =
            q.frame := by
  have hWalk :
      (PassM.gather program).runOn (.start options sink) =
        (PassM.listener.hearAll
          (Node.eventsOfAll program.items)).runOn
          (.enteredOver options sink program) := by
    rw [← walkAll_eq_hearAll]
    rfl
  rw [runPass, PassM.analyze_eq, PassM.runOn_bind,
    hWalk] at h ⊢
  cases hHears :
      (PassM.listener.hearAll
        (Node.eventsOfAll program.items)).runOn
        (.enteredOver options sink program) with
  | mk outcome q =>
      rw [hHears] at h
      cases outcome with
      | error e => cases h
      | ok done =>
          exact ⟨q, hHears, q.findings_writeReport q.source,
            rfl⟩

/-
  What an analysis that ends well has done: it has raised
  and written what its nodes are blamed for, in pre-order,
  and its frames are those of the program.
-/
theorem runPass_ok
    (h : (runPass options sink program).1 = .ok ()) :
    (runPass options sink program).2.diagnostics =
        (visitsOver options sink program).flatMap
          Visit.violations ∧
      (visitsOver options sink program).map Visit.framed =
          program.frames ∧
        (runPass options sink program).2.frame =
          program.lastFrame := by
  rcases hears_of_runPass h with
    ⟨q, hHears, hFindings, hFrame⟩
  refine ⟨?_, hHears.frames, ?_⟩
  · have hWritten :=
      congrArg Findings.written
        (hFindings.trans hHears.findings)
    exact hWritten
  · rw [hFrame, hHears.frame_eq]
    rfl

/- No visit finds other options than those of its pass. -/
theorem options_of_mem_visitsOver
    {v : Visit}
    (hv : v ∈ visitsOver options sink program) :
    v.before.options = options :=
  (Pass.enduring_options options).of_mem_visitsFrom rfl hv

/- What is raised can be told from the frames. -/
theorem diagnostics_of_frames
    (h : (runPass options sink program).1 = .ok ()) :
    (runPass options sink program).2.diagnostics =
      program.frames.flatMap fun s =>
        s.1.violations options s.2.registry := by
  rcases runPass_ok h with ⟨hDiagnostics, hFrames, _⟩
  rw [hDiagnostics, ← hFrames, List.flatMap_map]
  apply List.flatMap_congr
  intro v hv
  rw [Visit.violations, options_of_mem_visitsOver hv]
  rfl

end ScopeAnalysis
