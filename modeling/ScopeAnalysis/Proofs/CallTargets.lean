import ScopeAnalysis.Proofs.EntryKeys
import ScopeAnalysis.Proofs.Findings

/-
  What calls are looked up as, and what is found.

  Key definitions include:
    * `Diagnostic.AboutCall`
    * `Findings.NoCalls`
    * `KeysAgree`

  Key theorems include:
    * `callViolation_of_mem_violations`
    * `Registry.Orderly.lookup_standardLead`
    * `keysAgree`

  The standard options look a callee up under a key that no
  declaration stores anything under, not even as an alias.
  With these options no call is ever found to be wrong.
-/

------------------------------------------------------------
-- Diagnostics About Calls
------------------------------------------------------------

namespace ScopeAnalysis

/- A diagnostic comes from the check of a call. -/
def Diagnostic.AboutCall (d : Diagnostic) : Prop :=
  d.code = .wrongNumberOfArguments ∨
    d.code = .argumentTypeMismatch

/- A check of a call raises nothing but what is about it. -/
theorem aboutCall_of_judgeCall
    {options : Options}
    {r : Registry}
    {expr : Expr}
    {start : Position}
    {d : Diagnostic}
    (h :
      (judgeCall options r expr start).diagnostic? =
        some d) :
    d.AboutCall := by
  rcases judgeCall_place h with
    ⟨callee, expected, found, rfl⟩ |
    ⟨callee, argument, expected, found, rfl⟩
  · exact .inl rfl
  · exact .inr rfl

/- Checks of headers and of indexes are not about calls. -/
theorem not_aboutCall_of_mem_headerViolations
    {options : Options}
    {decl : MethodDecl}
    {start : Position}
    {d : Diagnostic}
    (hd : d ∈ headerViolations options decl start) :
    ¬ d.AboutCall := by
  rcases code_of_mem_headerViolations hd with hCode | hCode
  · simp [Diagnostic.AboutCall, hCode]
  · simp [Diagnostic.AboutCall, hCode]

theorem not_aboutCall_of_judgeIndex
    {r : Registry}
    {assignment : Assignment}
    {start : Position}
    {d : Diagnostic}
    (h :
      (judgeIndex r assignment start).diagnostic? =
        some d) :
    ¬ d.AboutCall := by
  have hCategory := (judgeIndex_place h).1
  rintro (hCode | hCode)
  · simp [Diagnostic.category, hCode,
      DiagnosticCode.category] at hCategory
  · simp [Diagnostic.category, hCode,
      DiagnosticCode.category] at hCategory

/- Only definitions of variables are blamed for calls. -/
theorem callViolation_of_mem_violations
    {options : Options}
    {r : Registry}
    {node : Node}
    {d : Diagnostic}
    (hd : d ∈ node.violations options r)
    (hCall : d.AboutCall) :
    ∃ definition,
      node.kind = .varDef definition ∧
        callViolation? options
            (r.afterOps node.declarations)
            node.span.start definition.initializers =
          some d := by
  unfold Node.violations at hd
  cases hKind : node.kind with
  | classDecl decl =>
      simp only [hKind] at hd
      split at hd
      · rw [List.mem_singleton.mp hd] at hCall
        simp [Diagnostic.AboutCall, Diagnostic.code] at hCall
      · cases hd
  | fieldDecl decl =>
      simp only [hKind] at hd
      split at hd
      · rw [List.mem_singleton.mp hd] at hCall
        simp [Diagnostic.AboutCall, Diagnostic.code] at hCall
      · cases hd
  | methodDecl decl =>
      simp only [hKind] at hd
      split at hd
      · rw [List.mem_singleton.mp hd] at hCall
        simp [Diagnostic.AboutCall, Diagnostic.code] at hCall
      · exact absurd hCall
          (not_aboutCall_of_mem_headerViolations hd)
  | varDef definition =>
      simp only [hKind] at hd
      exact ⟨definition, rfl, Option.mem_toList.mp hd⟩
  | assignment assignment =>
      simp only [hKind] at hd
      exact absurd hCall
        (not_aboutCall_of_judgeIndex
          (Option.mem_toList.mp hd))
  | _ => simp [hKind] at hd

end ScopeAnalysis

------------------------------------------------------------
-- Keys Of Call Targets
------------------------------------------------------------

namespace ScopeAnalysis

/- The keys of symbols begin unlike those of callees. -/
theorem Symbol.base_ne_standardLead
    {s : Symbol}
    {base : String}
    (hBase : s.key? = some base)
    (suffix callee : String) :
    base ++ suffix ≠ Options.standardLead ++ callee := by
  intro hEq
  have hFront :=
    congrArg (fun text => text.toList.take 2) hEq
  unfold Symbol.key? at hBase
  cases hKind : s.kind with
  | classType =>
      simp only [hKind, Option.some.injEq] at hBase
      simp [← hBase, SymbolKey.classKey,
        Options.standardLead] at hFront
  | field =>
      simp only [hKind, Option.some.injEq] at hBase
      simp [← hBase, SymbolKey.fieldKey,
        Options.standardLead] at hFront
  | method =>
      simp only [hKind, Option.some.injEq] at hBase
      simp [← hBase, SymbolKey.methodKey,
        Options.standardLead] at hFront
  | var =>
      simp only [hKind, Option.some.injEq] at hBase
      simp [← hBase, SymbolKey.variableKey,
        Options.standardLead] at hFront
  | ifMarker =>
      simp only [hKind, Option.some.injEq] at hBase
      simp [← hBase, SymbolKey.ifMarker,
        Options.standardLead] at hFront
  | loopMarker =>
      simp only [hKind, Option.some.injEq] at hBase
      simp [← hBase, SymbolKey.loopMarker,
        Options.standardLead] at hFront
  | elseMarker => simp [hKind] at hBase

namespace Registry

/- No scope has a symbol for a callee's standard key. -/
theorem Orderly.lookup_standardLead
    {r : Registry}
    (h : r.Orderly)
    (scope : ScopeId)
    (callee : String) :
    r.lookup scope (Options.standardLead ++ callee) =
      none := by
  rw [Option.eq_none_iff_forall_ne_some]
  intro symbol hFound
  rcases (h.wellPlaced_of_lookup hFound).spelled with
    ⟨base, hBase, hSpelled⟩
  rcases hSpelled.exists_suffix with ⟨suffix, hKey⟩
  exact Symbol.base_ne_standardLead hBase suffix callee
    hKey.symm

variable {options : Options}
variable {r : Registry}

/- So no call is found to be wrong. -/
theorem Orderly.judgeCall_standardLead
    (h : r.Orderly)
    (hLead : options.targetLead = Options.standardLead)
    (expr : Expr)
    (start : Position) :
    (judgeCall options r expr start).diagnostic? =
      none := by
  unfold judgeCall
  cases expr.callTarget? with
  | none => rfl
  | some callee =>
      have hNone := h.lookup_standardLead r.current callee
      simp only [Options.callTargetKey, hLead, hNone]
      rfl

theorem Orderly.callViolation_standardLead
    (h : r.Orderly)
    (hLead : options.targetLead = Options.standardLead)
    (start : Position)
    (exprs : List Expr) :
    callViolation? options r start exprs = none := by
  rw [callViolation?, List.findSome?_eq_none_iff]
  intro expr _
  exact h.judgeCall_standardLead hLead expr start

/- No node is blamed for a call. -/
theorem Orderly.not_aboutCall
    (h : r.Orderly)
    (hLead : options.targetLead = Options.standardLead)
    {node : Node}
    {d : Diagnostic}
    (hd : d ∈ node.violations options r) :
    ¬ d.AboutCall := by
  intro hCall
  rcases callViolation_of_mem_violations hd hCall with
    ⟨definition, _, hViolation⟩
  rw [(h.declarations node).callViolation_standardLead
    hLead] at hViolation
  cases hViolation

end Registry

end ScopeAnalysis

------------------------------------------------------------
-- Findings Without Calls
------------------------------------------------------------

namespace ScopeAnalysis

namespace Findings

/- Nothing was raised about a call, written or not. -/
structure NoCalls (f : Findings) : Prop where
  raised : ∀ d ∈ f.raised, ¬ d.AboutCall
  written : ∀ d ∈ f.written, ¬ d.AboutCall

theorem NoCalls.add
    {f : Findings}
    {ds : List Diagnostic}
    (h : f.NoCalls)
    (hNew : ∀ d ∈ ds, ¬ d.AboutCall) :
    (f.add ds).NoCalls where
  raised := List.forall_mem_append.mpr ⟨h.raised, hNew⟩
  written := List.forall_mem_append.mpr ⟨h.written, hNew⟩

theorem NoCalls.lose
    {f : Findings}
    {d : Diagnostic}
    (h : f.NoCalls)
    (hNew : ¬ d.AboutCall) :
    (f.lose d).NoCalls where
  raised :=
    List.forall_mem_append.mpr ⟨h.raised, by simpa⟩
  written := h.written

end Findings

/- An action that blames no call leaves none blamed. -/
theorem PassM.Reports.noCalls
    {α : Type}
    {action : PassM α}
    {p : Pass}
    {ds : List Diagnostic}
    (h : action.Reports p ds)
    (hp : p.findings.NoCalls)
    (hNew : ∀ d ∈ ds, ¬ d.AboutCall) :
    action.Ensures p
      (fun _ q => q.findings.NoCalls)
      (fun q => q.findings.NoCalls) := by
  refine h.mono ?_ ?_
  · intro _ q hq
    rw [hq]
    exact hp.add hNew
  · rintro q ⟨front, d, rest, rfl, hq⟩
    have hFront := List.forall_mem_append.mp hNew
    rw [hq]
    exact (hp.add hFront.1).lose (hFront.2 d (by simp))

/-
  A pass with the standard keys for callees, whose registry
  is orderly, and in which nothing was raised about calls.
-/
structure Pass.CallsUnchecked (p : Pass) : Prop where
  lead : p.options.targetLead = Options.standardLead
  orderly : p.registry.Orderly
  findings : p.findings.NoCalls

end ScopeAnalysis

------------------------------------------------------------
-- Histories
------------------------------------------------------------

namespace ScopeAnalysis

namespace Pass

/- Entering a node goes on without a word about calls. -/
theorem CallsUnchecked.enterNode
    {p : Pass}
    (hp : p.CallsUnchecked)
    (node : Node) :
    (PassM.enterNode node).Ensures p
      (fun _ q => q.CallsUnchecked) CallsUnchecked := by
  have hOptions :=
    (enduring_options p.options).enterNode node p rfl
  have hOrderly :=
    enduring_orderly.enterNode node p hp.orderly
  have hFindings :=
    (PassM.reports_enterNode node p).noCalls hp.findings
      fun _ hd => hp.orderly.not_aboutCall hp.lead hd
  refine (hOptions.and (hOrderly.and hFindings)).mono ?_ ?_
  · rintro _ q ⟨hSame, hRegistry, hNone⟩
    exact ⟨hSame ▸ hp.lead, hRegistry, hNone⟩
  · rintro q ⟨hSame, hRegistry, hNone⟩
    exact ⟨hSame ▸ hp.lead, hRegistry, hNone⟩

theorem CallsUnchecked.exitNode
    {p : Pass}
    (hp : p.CallsUnchecked)
    (node : Node) :
    (p.exitNode node).CallsUnchecked := by
  have hOptions :=
    (enduring_options p.options).exitNode node p rfl
  refine ⟨?_, ?_, ?_⟩
  · rw [hOptions]
    exact hp.lead
  · exact enduring_orderly.exitNode node p hp.orderly
  · rw [p.findings_exitNode node]
    exact hp.findings

/- A single check of a call finds nothing wrong. -/
theorem CallsUnchecked.checkCall
    {p : Pass}
    (hp : p.CallsUnchecked)
    (expr : Expr)
    (span : Span) :
    (PassM.checkCall expr span).Ensures p
      (fun _ q => q.CallsUnchecked) CallsUnchecked := by
  have hNone :=
    hp.orderly.judgeCall_standardLead hp.lead expr
      span.start
  refine (PassM.ensures_checkCall_of_none hNone).mono ?_
    (fun _ hq => hq.elim)
  rintro _ q ⟨_, hFindings, hRegistry, hOptions⟩
  refine ⟨?_, ?_, ?_⟩
  · rw [hOptions]
    exact hp.lead
  · rw [hRegistry]
    exact hp.orderly
  · rw [hFindings]
    exact hp.findings

end Pass

end ScopeAnalysis
