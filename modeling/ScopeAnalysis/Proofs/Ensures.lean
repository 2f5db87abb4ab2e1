import ScopeAnalysis.Pass.Handlers

/-
  What holds when an action on a pass has ended.

  Key definitions include:
    * `PassM.Ensures`

  Key theorems include:
    * `PassM.ensures_bind`
    * `PassM.Ensures.mono`
    * `PassM.Ensures.and`
    * `PassM.ensures_attempt_of`
    * `PassM.ensures_report_of`
    * `PassM.ensures_reportAll_of`
    * `PassM.ensures_checkCalls_of`

  An action ends with an answer or with a failure, and in a
  state either way.  A statement about an action therefore
  has two parts, and the part on failures is the same for
  all steps of a sequence.
-/

------------------------------------------------------------
-- Outcomes
------------------------------------------------------------

namespace ScopeAnalysis

namespace PassM

variable {α β : Type}

/-
  What an action leads to from a given state: `done` holds
  of an answer and the state it comes with, and `failed` of
  the state that a failure leaves behind.
-/
def Ensures
    (action : PassM α)
    (p : Pass)
    (done : α → Pass → Prop)
    (failed : Pass → Prop) : Prop :=
  match action.runOn p with
  | (.ok a, q) => done a q
  | (.error _, q) => failed q

@[simp] theorem ensures_pure
    (a : α)
    (p : Pass)
    (done : α → Pass → Prop)
    (failed : Pass → Prop) :
    (pure a : PassM α).Ensures p done failed ↔ done a p :=
  Iff.rfl

@[simp] theorem ensures_step
    (f : Pass → α × Pass)
    (p : Pass)
    (done : α → Pass → Prop)
    (failed : Pass → Prop) :
    (step f).Ensures p done failed ↔
      done (f p).1 (f p).2 :=
  Iff.rfl

@[simp] theorem ensures_change
    (f : Pass → Pass)
    (p : Pass)
    (done : Unit → Pass → Prop)
    (failed : Pass → Prop) :
    (change f).Ensures p done failed ↔ done () (f p) :=
  Iff.rfl

@[simp] theorem ensures_ask
    (f : Pass → α)
    (p : Pass)
    (done : α → Pass → Prop)
    (failed : Pass → Prop) :
    (ask f).Ensures p done failed ↔ done (f p) p :=
  Iff.rfl

/- The second action starts where the first one is done. -/
@[simp] theorem ensures_bind
    (a : PassM α)
    (f : α → PassM β)
    (p : Pass)
    (done : β → Pass → Prop)
    (failed : Pass → Prop) :
    (a >>= f).Ensures p done failed ↔
      a.Ensures p
        (fun b q => (f b).Ensures q done failed)
        failed := by
  unfold Ensures
  rw [runOn_bind]
  generalize a.runOn p = r
  obtain ⟨outcome, q⟩ := r
  cases outcome <;> rfl

/- Changing the answer changes what there is to say of it. -/
@[simp] theorem ensures_map
    (f : α → β)
    (a : PassM α)
    (p : Pass)
    (done : β → Pass → Prop)
    (failed : Pass → Prop) :
    (f <$> a).Ensures p done failed ↔
      a.Ensures p (fun b q => done (f b) q) failed := by
  unfold Ensures
  rw [runOn_map]
  generalize a.runOn p = r
  obtain ⟨outcome, q⟩ := r
  cases outcome <;> rfl

/- Weaker statements hold as well. -/
theorem Ensures.mono
    {action : PassM α}
    {p : Pass}
    {done done' : α → Pass → Prop}
    {failed failed' : Pass → Prop}
    (h : action.Ensures p done failed)
    (hDone : ∀ a q, done a q → done' a q)
    (hFailed : ∀ q, failed q → failed' q) :
    action.Ensures p done' failed' := by
  unfold Ensures at h ⊢
  split at h
  · exact hDone _ _ h
  · exact hFailed _ h

/- Two statements that hold of an action hold together. -/
theorem Ensures.and
    {action : PassM α}
    {p : Pass}
    {done done' : α → Pass → Prop}
    {failed failed' : Pass → Prop}
    (h : action.Ensures p done failed)
    (h' : action.Ensures p done' failed') :
    action.Ensures p
      (fun a q => done a q ∧ done' a q)
      (fun q => failed q ∧ failed' q) := by
  unfold Ensures at h h' ⊢
  split at h
  · rename_i hRun
    rw [hRun] at h'
    exact ⟨h, h'⟩
  · rename_i hRun
    rw [hRun] at h'
    exact ⟨h, h'⟩

/- An action that is done has its answer and its state. -/
theorem Ensures.of_ok
    {action : PassM α}
    {p q : Pass}
    {a : α}
    {done : α → Pass → Prop}
    {failed : Pass → Prop}
    (h : action.Ensures p done failed)
    (hRun : action.runOn p = (.ok a, q)) :
    done a q := by
  rw [Ensures, hRun] at h
  exact h

/- What an attempt leaves may hold however it ends. -/
theorem ensures_attempt_of
    {f : Pass → Except SinkError α × Pass}
    {p : Pass}
    {done : α → Pass → Prop}
    {failed : Pass → Prop}
    (hDone : ∀ a, done a (f p).2)
    (hFailed : failed (f p).2) :
    (attempt f).Ensures p done failed := by
  unfold Ensures
  rw [runOn_attempt]
  generalize f p = r at hDone hFailed
  obtain ⟨outcome, q⟩ := r
  cases outcome with
  | ok a => exact hDone a
  | error e => exact hFailed

/- What a report leaves may hold however it ends. -/
theorem ensures_report_of
    {d : Diagnostic}
    {p : Pass}
    {done : Unit → Pass → Prop}
    {failed : Pass → Prop}
    (hDone : done () (p.report d).2)
    (hFailed : failed (p.report d).2) :
    (report d).Ensures p done failed :=
  ensures_attempt_of (fun _ => hDone) hFailed

/- What every report keeps holds after all of them. -/
theorem ensures_reportAll_of
    {keeps : Pass → Prop}
    (hKeeps : ∀ d q, keeps q → keeps (q.report d).2)
    (ds : List Diagnostic)
    {p : Pass}
    (hp : keeps p) :
    (reportAll ds).Ensures p
      (fun _ q => keeps q) keeps := by
  induction ds generalizing p with
  | nil => exact hp
  | cons d ds ih =>
      have hReport := hKeeps d p hp
      rw [reportAll, ensures_bind]
      exact ensures_report_of (ih hReport) hReport

/- What holds on both endings holds of the state after. -/
theorem Ensures.after
    {action : PassM α}
    {p : Pass}
    {holds : Pass → Prop}
    (h : action.Ensures p (fun _ q => holds q) holds) :
    holds (action.runOn p).2 := by
  unfold Ensures at h
  split at h
  · rename_i hRun
    rw [hRun]
    exact h
  · rename_i hRun
    rw [hRun]
    exact h

end PassM

end ScopeAnalysis

------------------------------------------------------------
-- Checks Of Calls
------------------------------------------------------------

namespace ScopeAnalysis

namespace PassM

variable {keeps : Pass → Prop}

/- A check of a call reports or takes note, and no more. -/
theorem ensures_checkCall_of
    (hReport : ∀ d q, keeps q → keeps (q.report d).2)
    (hNote :
      ∀ key scope q,
        keeps q → keeps (q.note (.targetNotFound key scope)))
    (expr : Expr)
    (span : Span)
    {p : Pass}
    (hp : keeps p) :
    (checkCall expr span).Ensures p
      (fun _ q => keeps q) keeps := by
  unfold checkCall
  rw [ensures_bind, ensures_ask]
  split
  · exact (ensures_pure _ _ _ _).mpr hp
  · exact (ensures_pure _ _ _ _).mpr hp
  · rw [ensures_bind, ensures_change]
    exact (ensures_pure _ _ _ _).mpr (hNote _ _ p hp)
  · rename_i d _
    have hAfter := hReport d p hp
    rw [ensures_bind]
    exact ensures_report_of
      ((ensures_pure _ _ _ _).mpr hAfter) hAfter

/- Checks of any number of calls do so too. -/
theorem ensures_checkCalls_of
    (hReport : ∀ d q, keeps q → keeps (q.report d).2)
    (hNote :
      ∀ key scope q,
        keeps q → keeps (q.note (.targetNotFound key scope)))
    (span : Span)
    (exprs : List Expr)
    {p : Pass}
    (hp : keeps p) :
    (checkCalls span exprs).Ensures p
      (fun _ q => keeps q) keeps := by
  induction exprs generalizing p with
  | nil => exact (ensures_pure _ _ _ _).mpr hp
  | cons expr exprs ih =>
      have hFirst :=
        ensures_checkCall_of hReport hNote expr span hp
      rw [checkCalls, ensures_bind]
      refine hFirst.mono ?_ (fun q hq => hq)
      intro wrong q hq
      split
      · exact (ensures_pure _ _ _ _).mpr hq
      · exact ih hq

end PassM

end ScopeAnalysis
