import ScopeAnalysis.Pass.Basic

/-
  Sequences of steps of a pass.

  Key definitions include:
    * `PassM`
    * `PassM.runOn`
    * `PassM.attempt`
    * `PassM.step`
    * `PassM.change`
    * `PassM.ask`
    * `PassM.reportAll`

  Key theorems include:
    * `PassM.runOn_bind`
    * `PassM.runOn_attempt`

  An action runs steps one after the other and ends at the
  first that fails.  What `runOn` says about an action is
  all there is to know about it.
-/

------------------------------------------------------------
-- Actions
------------------------------------------------------------

namespace ScopeAnalysis

/- Steps of a pass in sequence, up to the first failure. -/
abbrev PassM :=
  ExceptT SinkError (StateM Pass)

namespace PassM

variable {α β : Type}

/- How an action on a pass ends, and in what state. -/
def runOn
    (action : PassM α)
    (p : Pass) : Except SinkError α × Pass :=
  action.run.run p

/- The action of a step that can fail. -/
def attempt
    (step : Pass → Except SinkError α × Pass) : PassM α :=
  ExceptT.mk step

/- The action of a step that has an answer. -/
def step
    (f : Pass → α × Pass) : PassM α :=
  attempt fun p => (.ok (f p).1, (f p).2)

/- The action of a step that only changes the state. -/
def change
    (f : Pass → Pass) : PassM Unit :=
  step fun p => ((), f p)

/- The action of a question that changes nothing. -/
def ask
    (f : Pass → α) : PassM α :=
  step fun p => (f p, p)

/- An action that does nothing keeps the state. -/
@[simp] theorem runOn_pure
    (a : α)
    (p : Pass) :
    (pure a : PassM α).runOn p = (.ok a, p) :=
  rfl

/-
  The second action starts from the state the first one ends
  in, unless the first one fails.
-/
theorem runOn_bind
    (a : PassM α)
    (f : α → PassM β)
    (p : Pass) :
    (a >>= f).runOn p =
      match a.runOn p with
      | (.ok b, q) => (f b).runOn q
      | (.error e, q) => (.error e, q) := by
  simp only [runOn, ExceptT.run_bind, StateT.run_bind]
  generalize StateT.run (ExceptT.run a) p = r
  obtain ⟨outcome, q⟩ := r
  cases outcome <;> rfl

/- Changing the answer keeps the state and the failure. -/
@[simp] theorem runOn_map
    (f : α → β)
    (a : PassM α)
    (p : Pass) :
    (f <$> a).runOn p =
      ((a.runOn p).1.map f, (a.runOn p).2) := by
  rw [← bind_pure_comp, runOn_bind]
  generalize a.runOn p = r
  obtain ⟨outcome, q⟩ := r
  cases outcome <;> rfl

/- An attempt is the step that it was made from. -/
@[simp] theorem runOn_attempt
    (f : Pass → Except SinkError α × Pass)
    (p : Pass) :
    (attempt f).runOn p = f p :=
  rfl

/- A step with an answer does not fail. -/
@[simp] theorem runOn_step
    (f : Pass → α × Pass)
    (p : Pass) :
    (step f).runOn p = (.ok (f p).1, (f p).2) :=
  rfl

/- A change does not fail. -/
@[simp] theorem runOn_change
    (f : Pass → Pass)
    (p : Pass) :
    (change f).runOn p = (.ok (), f p) :=
  rfl

/- A question keeps the state. -/
@[simp] theorem runOn_ask
    (f : Pass → α)
    (p : Pass) :
    (ask f).runOn p = (.ok (f p), p) :=
  rfl

end PassM

end ScopeAnalysis

------------------------------------------------------------
-- Writing
------------------------------------------------------------

namespace ScopeAnalysis

namespace PassM

/- Raise a diagnostic. -/
def report (d : Diagnostic) : PassM Unit :=
  attempt fun p => p.report d

/- Raise diagnostics one after the other. -/
def reportAll : List Diagnostic → PassM Unit
| [] => pure ()
| d :: ds => do
    report d
    reportAll ds

/- Write the report on all symbols declared so far. -/
def writeReport (source : String) : PassM Unit :=
  attempt fun p => p.writeReport source

end PassM

end ScopeAnalysis
