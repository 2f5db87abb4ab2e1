import Mathlib.Algebra.Ring.Nat
import ScopeAnalysis.Proofs.Passages
import ScopeAnalysis.Proofs.Visits
import ScopeAnalysis.Recorder

/-
  Walks as sequences of events.

  Key definitions include:
    * `Listener.react`
    * `Listener.runHooks`
    * `WalksAlongEvents`

  Key theorems include:
    * `Listener.run_hearAll`
    * `Listener.runHooks_eq_error_iff`
    * `walkProgram_eq_hearAll`
    * `Program.length_events`
    * `Recorder.runHooks_all`
    * `walksAlongEvents`

  A walk returns early from the middle of a tree when a hook
  fails.  It might as well go through a list of events, where
  there is but one way to stop.
-/

------------------------------------------------------------
-- Hooks In Order
------------------------------------------------------------

namespace ScopeAnalysis

variable {ε σ : Type}

namespace Listener

/- How the hook of an event ends, and in what state. -/
def react
    (listener : Listener (ExceptT ε (StateM σ)))
    (event : Event)
    (s : σ) : Except ε Unit × σ :=
  (listener.hear event).run.run s

/-
  Run the hooks of events one after the other.  The first
  hook that fails is the last one that runs.
-/
def runHooks
    (listener : Listener (ExceptT ε (StateM σ))) :
    List Event → σ → Except ε Unit × σ
| [], s => (.ok (), s)
| event :: events, s =>
    match listener.react event s with
    | (.ok (), t) => listener.runHooks events t
    | (.error e, t) => (.error e, t)

variable (listener : Listener (ExceptT ε (StateM σ)))

/- To hear events is to run their hooks. -/
theorem run_hearAll
    (events : List Event)
    (s : σ) :
    (listener.hearAll events).run.run s =
      listener.runHooks events s := by
  induction events generalizing s with
  | nil => rfl
  | cons event events ih =>
      simp only [hearAll, runHooks, react,
        ExceptT.run_bind, StateT.run_bind]
      generalize
        StateT.run (ExceptT.run (listener.hear event)) s = r
      obtain ⟨outcome, t⟩ := r
      cases outcome with
      | ok done => exact ih t
      | error e => rfl

variable {listener}
variable {events : List Event}
variable {s t : σ}

theorem runHooks_cons_of_ok
    {event : Event}
    (h : listener.react event s = (.ok (), t))
    (events : List Event) :
    listener.runHooks (event :: events) s =
      listener.runHooks events t := by
  rw [runHooks, h]

theorem runHooks_cons_of_error
    {event : Event}
    {e : ε}
    (h : listener.react event s = (.error e, t))
    (events : List Event) :
    listener.runHooks (event :: events) s = (.error e, t) := by
  rw [runHooks, h]

/- Hooks that do not fail are followed by the next ones. -/
theorem runHooks_append_of_ok
    (h : listener.runHooks events s = (.ok (), t))
    (more : List Event) :
    listener.runHooks (events ++ more) s =
      listener.runHooks more t := by
  induction events generalizing s with
  | nil =>
      cases h
      rfl
  | cons event events ih =>
      cases hFirst : listener.react event s with
      | mk outcome r =>
          cases outcome with
          | ok done =>
              rw [runHooks_cons_of_ok hFirst] at h
              rw [List.cons_append, runHooks_cons_of_ok hFirst]
              exact ih h
          | error e =>
              rw [runHooks_cons_of_error hFirst] at h
              cases h

/- Where hooks fail, one of them is the first to fail. -/
theorem exists_of_runHooks_error
    {e : ε}
    (h : listener.runHooks events s = (.error e, t)) :
    ∃ front event rest r,
      events = front ++ event :: rest ∧
        listener.runHooks front s = (.ok (), r) ∧
          listener.react event r = (.error e, t) := by
  induction events generalizing s with
  | nil => cases h
  | cons event events ih =>
      cases hFirst : listener.react event s with
      | mk outcome r =>
          cases outcome with
          | ok done =>
              rw [runHooks_cons_of_ok hFirst] at h
              rcases ih h with
                ⟨front, other, rest, q, rfl, hRun, hFail⟩
              refine
                ⟨event :: front, other, rest, q, rfl, ?_,
                  hFail⟩
              rw [runHooks_cons_of_ok hFirst]
              exact hRun
          | error e' =>
              rw [runHooks_cons_of_error hFirst] at h
              rw [← h]
              exact ⟨[], event, events, s, rfl, rfl, hFirst⟩

/- Hooks fail as the first of them that fails. -/
theorem runHooks_eq_error_iff
    {e : ε} :
    listener.runHooks events s = (.error e, t) ↔
      ∃ front event rest r,
        events = front ++ event :: rest ∧
          listener.runHooks front s = (.ok (), r) ∧
            listener.react event r = (.error e, t) := by
  constructor
  · exact exists_of_runHooks_error
  · rintro ⟨front, event, rest, r, rfl, hRun, hFail⟩
    rw [runHooks_append_of_ok hRun,
      runHooks_cons_of_error hFail]

end Listener

/- A walk over a program hears the program's events. -/
theorem walkProgram_eq_hearAll
    {m : Type → Type}
    [Monad m]
    [LawfulMonad m]
    (listener : Listener m)
    (program : Program) :
    walkProgram listener program =
      listener.hearAll program.events := by
  have hItems := walkAll_eq_hearAll listener program.items
  rw [walkProgram, Program.events, Listener.hearAll,
    hearAll_append, hItems]
  simp [Listener.hear, Listener.hearAll]

end ScopeAnalysis

------------------------------------------------------------
-- Counting
------------------------------------------------------------

namespace ScopeAnalysis

namespace Node

mutual

/- A tree has two events for each of its nodes. -/
theorem length_events :
    (node : Node) →
      node.events.length = 2 * node.count
| ⟨kind, span, children⟩ => by
    have hChildren := length_eventsOfAll children
    rw [events, count, List.length_cons, List.length_append,
      List.length_singleton, hChildren]
    omega

theorem length_eventsOfAll :
    (nodes : List Node) →
      (eventsOfAll nodes).length = 2 * countAll nodes
| [] => by
    rw [eventsOfAll, countAll]
    rfl
| node :: nodes => by
    rw [eventsOfAll, countAll, List.length_append,
      length_events node, length_eventsOfAll nodes]
    omega

end

theorem countAll_eq_sum
    (nodes : List Node) :
    countAll nodes = (nodes.map count).sum := by
  induction nodes with
  | nil => rw [countAll, List.map_nil, List.sum_nil]
  | cons node nodes ih =>
      rw [countAll, ih, List.map_cons, List.sum_cons]

end Node

/- A program adds one event at its start and its end. -/
theorem Program.length_events
    (program : Program) :
    program.events.length =
      2 + 2 * (program.items.map Node.count).sum := by
  rw [events, List.length_cons, List.length_append,
    List.length_singleton, Node.length_eventsOfAll,
    Node.countAll_eq_sum]
  omega

end ScopeAnalysis

------------------------------------------------------------
-- Recording
------------------------------------------------------------

namespace ScopeAnalysis

namespace Recorder

/- A recorder does the same at every event. -/
theorem react_all
    (limit : Option Nat)
    (event : Event)
    (events : Array Event) :
    (all limit).react event events =
      if limit = some events.size then
        (.error ⟨events.size⟩, events)
      else
        (.ok (), events.push event) := by
  have hHear :
      (all limit).hear event = record limit event := by
    cases event <;> rfl
  have hRecord :
      (record limit event).run.run events =
        (if limit = some events.size then
            throw ⟨events.size⟩
          else
            set (events.push event) :
          RecorderM Unit).run.run events :=
    rfl
  rw [Listener.react, hHear, hRecord]
  split
  · rfl
  · rfl

/- A limit that is not passed yet is the number recorded. -/
theorem runHooks_all
    {limit : Nat}
    (events : List Event)
    {heard : Array Event}
    (h : heard.size ≤ limit) :
    (all (some limit)).runHooks events heard =
      ( if heard.size + events.length ≤ limit then
          .ok ()
        else
          .error ⟨limit⟩,
        heard ++ events.take (limit - heard.size) ) := by
  induction events generalizing heard with
  | nil => simp [Listener.runHooks, h]
  | cons event events ih =>
      rw [Listener.runHooks, react_all]
      by_cases hFull : heard.size = limit
      · subst hFull
        simp
      · have hRoom : (heard.push event).size ≤ limit := by
          rw [Array.size_push]
          omega
        have hTake :
            limit - heard.size =
              limit - (heard.push event).size + 1 := by
          rw [Array.size_push] at hRoom ⊢
          omega
        have hLimit : some limit ≠ some heard.size := by
          simpa using Ne.symm hFull
        have hSize :
            (heard.push event).size + events.length =
              heard.size + (event :: events).length := by
          rw [Array.size_push, List.length_cons]
          omega
        simp only [if_neg hLimit]
        rw [ih hRoom, hTake, List.take_succ_cons, hSize]
        simp

/- A recorder hears the events of a program in order. -/
theorem run_eq_runHooks
    (limit : Option Nat)
    (program : Program) :
    run (all limit) program =
      (all limit).runHooks program.events #[] := by
  rw [run, walkProgram_eq_hearAll, Listener.run_hearAll]

end Recorder

end ScopeAnalysis

------------------------------------------------------------
-- Walks Along Events
------------------------------------------------------------

namespace ScopeAnalysis

/-
  A walk over a program is its sequence of events.  Hooks of
  any kind run along that sequence up to the first that
  fails.  Between the events of the program itself stand the
  passages of its nodes: at every place one that enters the
  node there and one that leaves it, and between the two just
  those of the places further down.  A recorder with a limit
  records as many events as the limit says and stops at the
  next.
-/
structure WalksAlongEvents (program : Program) : Prop where
  runs :
    ∀ (ε σ : Type)
        (listener : Listener (ExceptT ε (StateM σ)))
        (s : σ),
      (walkProgram listener program).run.run s =
        listener.runHooks program.events s
  stops_iff :
    ∀ (ε σ : Type)
        (listener : Listener (ExceptT ε (StateM σ)))
        (s t : σ)
        (e : ε),
      (walkProgram listener program).run.run s =
          (.error e, t) ↔
        ∃ front event rest r,
          program.events = front ++ event :: rest ∧
            listener.runHooks front s = (.ok (), r) ∧
              listener.react event r = (.error e, t)
  events :
    program.events =
      .programEntered program ::
        (program.passages.map Passage.event ++
          [.programLeft program])
  places :
    ∀ x,
      x ∈ program.passages ↔
        program.at? x.path = some x.node
  once :
    ∀ path node,
      program.at? path = some node →
        program.passages.filter (fun x => x.path = path) =
          [.entered path node, .left path node]
  nested :
    ∀ path node,
      program.at? path = some node →
        Passage.Bracketed program.passages path node
  length :
    program.events.length =
      2 + 2 * (program.items.map Node.count).sum
  records :
    ∀ limit,
      (Recorder.run (Recorder.all (some limit))
          program).2.toList =
        program.events.take (min limit program.events.length)
  stops :
    ∀ limit,
      (Recorder.run (Recorder.all (some limit)) program).1 =
        if limit < program.events.length then
          .error ⟨limit⟩
        else
          .ok ()

/- Every walk goes along the events of its program. -/
theorem walksAlongEvents
    (program : Program) :
    WalksAlongEvents program := by
  have hRuns :
      ∀ (ε σ : Type)
          (listener : Listener (ExceptT ε (StateM σ)))
          (s : σ),
        (walkProgram listener program).run.run s =
          listener.runHooks program.events s := by
    intro ε σ listener s
    rw [walkProgram_eq_hearAll, listener.run_hearAll]
  have hRecorder :
      ∀ limit,
        Recorder.run (Recorder.all (some limit)) program =
          ( if program.events.length ≤ limit then
              .ok ()
            else
              .error ⟨limit⟩,
            (program.events.take limit).toArray ) := by
    intro limit
    rw [Recorder.run_eq_runHooks,
      Recorder.runHooks_all _ (Nat.zero_le limit)]
    simp
  refine
    { runs := hRuns
      stops_iff := ?_
      events := ?_
      places := fun _ => Program.mem_passages_iff
      once := fun _ _ h =>
        (Program.bracketed_passages h).filter_eq
      nested := fun _ _ h => Program.bracketed_passages h
      length := program.length_events
      records := ?_
      stops := ?_ }
  · intro ε σ listener s t e
    rw [hRuns, Listener.runHooks_eq_error_iff]
  · rw [Program.events, Program.passages,
      Node.event_passagesFrom]
  · intro limit
    rw [hRecorder, ← List.take_eq_take_min]
  · intro limit
    rw [hRecorder]
    by_cases h : limit < program.events.length
    · rw [if_pos h, if_neg (Nat.not_le.mpr h)]
    · rw [if_neg h, if_pos (Nat.le_of_not_lt h)]

end ScopeAnalysis
