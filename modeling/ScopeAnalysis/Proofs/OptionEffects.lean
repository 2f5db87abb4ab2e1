import ScopeAnalysis.Proofs.CallTargets
import ScopeAnalysis.Proofs.Hearing

/-
  What options have an effect on.

  Key definitions include:
    * `withoutCodes`
    * `OptionsApart`

  Key theorems include:
    * `withoutCodes_violations`
    * `registry_runPass`
    * `optionsApart`

  Options are asked when a header is checked and when a call
  is looked up.  A check can raise a diagnostic under some
  options and none under others, but whatever comes behind
  it in the program is visited in the same frame.
-/

------------------------------------------------------------
-- Deleting Diagnostics
------------------------------------------------------------

namespace ScopeAnalysis

/- All diagnostics except those of the given codes. -/
def withoutCodes
    (codes : List DiagnosticCode)
    (ds : List Diagnostic) : List Diagnostic :=
  ds.filter fun d => d.code ∉ codes

section

variable {codes : List DiagnosticCode}

theorem withoutCodes_append
    (ds es : List Diagnostic) :
    withoutCodes codes (ds ++ es) =
      withoutCodes codes ds ++ withoutCodes codes es :=
  List.filter_append ..

theorem withoutCodes_flatMap
    {α : Type}
    (f : α → List Diagnostic)
    (xs : List α) :
    withoutCodes codes (xs.flatMap f) =
      xs.flatMap fun x => withoutCodes codes (f x) := by
  induction xs with
  | nil => rfl
  | cons x xs ih =>
      rw [List.flatMap_cons, withoutCodes_append, ih,
        List.flatMap_cons]

theorem withoutCodes_eq_nil
    {ds : List Diagnostic}
    (h : ∀ d ∈ ds, d.code ∈ codes) :
    withoutCodes codes ds = [] := by
  apply List.filter_eq_nil_iff.mpr
  intro d hd
  simpa using h d hd

end

end ScopeAnalysis

------------------------------------------------------------
-- Violations Under Other Options
------------------------------------------------------------

namespace ScopeAnalysis

variable {codes : List DiagnosticCode}
variable {o₁ o₂ : Options}

/- Options decide about the return type of a header only. -/
theorem withoutCodes_headerViolations
    (hReturn : .returnTypeMismatch ∈ codes)
    (decl : MethodDecl)
    (start : Position) :
    withoutCodes codes (headerViolations o₁ decl start) =
      withoutCodes codes
        (parameterCountViolations decl start) := by
  have hTypes :
      withoutCodes codes
          (returnTypeViolations o₁.returnTypeRule decl
            start) =
        [] := by
    apply withoutCodes_eq_nil
    intro d hd
    unfold returnTypeViolations at hd
    split at hd
    · cases hd
    · rw [List.mem_singleton.mp hd]
      exact hReturn
  rw [headerViolations, withoutCodes_append, hTypes,
    List.nil_append]

/-
  Without the codes that options decide about, a node is
  blamed for the same.  What is to be said about calls is
  left to `hCalls`.
-/
theorem withoutCodes_violations
    (hReturn : .returnTypeMismatch ∈ codes)
    (hCalls :
      ∀ r start exprs,
        withoutCodes codes
            (callViolation? o₁ r start exprs).toList =
          withoutCodes codes
            (callViolation? o₂ r start exprs).toList)
    (r : Registry)
    (node : Node) :
    withoutCodes codes (node.violations o₁ r) =
      withoutCodes codes (node.violations o₂ r) := by
  unfold Node.violations
  cases node.kind with
  | methodDecl decl =>
      simp only
      by_cases hTaken :
          r.has r.current
            (SymbolKey.methodKey decl.signature)
      · rw [if_pos hTaken, if_pos hTaken]
      · rw [if_neg hTaken, if_neg hTaken,
          withoutCodes_headerViolations hReturn,
          withoutCodes_headerViolations hReturn]
  | varDef definition => exact hCalls _ _ _
  | classDecl decl => rfl
  | fieldDecl decl => rfl
  | assignment assignment => rfl
  | closedConditional conditional => rfl
  | closedLoop => rfl
  | openConditional => rfl
  | openLoop => rfl
  | block => rfl
  | expression expr => rfl
  | other => rfl

/- Nothing is left of a call once both its codes are gone. -/
theorem withoutCodes_callViolation
    (hCount : .wrongNumberOfArguments ∈ codes)
    (hType : .argumentTypeMismatch ∈ codes)
    (options : Options)
    (r : Registry)
    (start : Position)
    (exprs : List Expr) :
    withoutCodes codes
        (callViolation? options r start exprs).toList =
      [] := by
  apply withoutCodes_eq_nil
  intro d hd
  rcases List.exists_of_findSome?_eq_some
      (Option.mem_toList.mp hd) with
    ⟨expr, _, hVerdict⟩
  rcases aboutCall_of_judgeCall hVerdict with hCode | hCode
  · rw [hCode]
    exact hCount
  · rw [hCode]
    exact hType

/- Calls are judged by the text in front of a callee. -/
theorem callViolation_congr
    (hLead : o₁.targetLead = o₂.targetLead)
    (r : Registry)
    (start : Position)
    (exprs : List Expr) :
    callViolation? o₁ r start exprs =
      callViolation? o₂ r start exprs := by
  have hJudge :
      ∀ expr,
        judgeCall o₁ r expr start =
          judgeCall o₂ r expr start := by
    intro expr
    unfold judgeCall Options.callTargetKey
    rw [hLead]
  unfold callViolation?
  simp only [hJudge]

end ScopeAnalysis

------------------------------------------------------------
-- Analyses Under Other Options
------------------------------------------------------------

namespace ScopeAnalysis

/- The registry that is left does not depend on options. -/
theorem registry_runPass
    (options : Options)
    (program : Program) :
    (runPass options .unlimited program).2.registry =
      program.lastFrame.registry := by
  have hOk := (runPass_visits options program).1
  exact congrArg Frame.registry (runPass_ok hOk).2.2

/- Two analyses raise the same where their nodes do. -/
theorem withoutCodes_diagnostics
    {codes : List DiagnosticCode}
    {o₁ o₂ : Options}
    (program : Program)
    (hNodes :
      ∀ r (node : Node),
        withoutCodes codes (node.violations o₁ r) =
          withoutCodes codes (node.violations o₂ r)) :
    withoutCodes codes
        (runPass o₁ .unlimited program).2.diagnostics =
      withoutCodes codes
        (runPass o₂ .unlimited program).2.diagnostics := by
  have hFirst := (runPass_visits o₁ program).1
  have hSecond := (runPass_visits o₂ program).1
  rw [diagnostics_of_frames hFirst,
    diagnostics_of_frames hSecond, withoutCodes_flatMap,
    withoutCodes_flatMap]
  apply List.flatMap_congr
  intro s _
  exact hNodes s.2.registry s.1

/-
  What two analyses of a program over sinks that never fail
  have in common, whatever their options: the whole registry,
  with its order of discovery, its tables and its open
  scopes, and all diagnostics but those of three codes.  With
  callees looked up alike there is only one such code.
-/
structure OptionsApart
    (o₁ o₂ : Options)
    (program : Program) : Prop where
  first_ends : (runPass o₁ .unlimited program).1 = .ok ()
  second_ends : (runPass o₂ .unlimited program).1 = .ok ()
  registry :
    (runPass o₁ .unlimited program).2.registry =
      (runPass o₂ .unlimited program).2.registry
  diagnostics :
    withoutCodes
        [ .returnTypeMismatch,
          .wrongNumberOfArguments,
          .argumentTypeMismatch ]
        (runPass o₁ .unlimited program).2.diagnostics =
      withoutCodes
        [ .returnTypeMismatch,
          .wrongNumberOfArguments,
          .argumentTypeMismatch ]
        (runPass o₂ .unlimited program).2.diagnostics
  same_lead :
    o₁.targetLead = o₂.targetLead →
      withoutCodes [.returnTypeMismatch]
          (runPass o₁ .unlimited program).2.diagnostics =
        withoutCodes [.returnTypeMismatch]
          (runPass o₂ .unlimited program).2.diagnostics

/- Options never do more than that. -/
theorem optionsApart
    (o₁ o₂ : Options)
    (program : Program) :
    OptionsApart o₁ o₂ program where
  first_ends := (runPass_visits o₁ program).1
  second_ends := (runPass_visits o₂ program).1
  registry := by
    rw [registry_runPass, registry_runPass]
  diagnostics := by
    apply withoutCodes_diagnostics
    apply withoutCodes_violations (by simp)
    intro r start exprs
    rw [withoutCodes_callViolation (by simp) (by simp),
      withoutCodes_callViolation (by simp) (by simp)]
  same_lead := by
    intro hLead
    apply withoutCodes_diagnostics
    apply withoutCodes_violations (by simp)
    intro r start exprs
    rw [callViolation_congr hLead]

end ScopeAnalysis
