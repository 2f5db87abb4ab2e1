import ScopeAnalysis.Proofs.Declaring
import ScopeAnalysis.Proofs.Lasting

/-
  What a pass raises, and what of it gets written.

  Key definitions include:
    * `Findings`
    * `Pass.findings`
    * `PassM.Reports`
    * `Node.violations`

  Key theorems include:
    * `PassM.reports_enterNode`
    * `Pass.findings_exitNode`
    * `Visit.raised_eq`

  What a node is to be blamed for is a function of the node,
  of the options and of the registry that it is entered
  with.  Entering the node raises just that, in order, up to
  the first diagnostic whose line the sink does not take
  whole; nothing else ever raises a diagnostic.
-/

------------------------------------------------------------
-- Findings
------------------------------------------------------------

namespace ScopeAnalysis

/- The diagnostic that is raised in an event, if any. -/
def LogEvent.diagnostic? : LogEvent → Option Diagnostic
| .diagnosticRaised d => some d
| .analysisStarted _ _ => none
| .scopeEntered _ _ => none
| .scopeExited _ _ => none
| .globalExitIgnored => none
| .declaring _ _ => none
| .variableRedefined _ _ => none
| .targetNotFound _ _ => none
| .lengthUnknown _ => none

/- The diagnostics raised so far, and those written whole. -/
structure Findings where
  raised : List Diagnostic
  written : List Diagnostic

namespace Findings

/- Raise diagnostics whose lines are written whole. -/
def add
    (f : Findings)
    (ds : List Diagnostic) : Findings where
  raised := f.raised ++ ds
  written := f.written ++ ds

/- Raise a diagnostic whose line is cut off. -/
def lose
    (f : Findings)
    (d : Diagnostic) : Findings where
  raised := f.raised ++ [d]
  written := f.written

@[simp] theorem add_nil
    (f : Findings) :
    f.add [] = f := by
  simp [add]

theorem add_append
    (f : Findings)
    (ds es : List Diagnostic) :
    (f.add ds).add es = f.add (ds ++ es) := by
  simp [add]

end Findings

namespace Pass

/- What a pass has raised and written so far. -/
def findings (p : Pass) : Findings where
  raised := p.log.toList.filterMap LogEvent.diagnostic?
  written := p.diagnostics

theorem findings_note
    (p : Pass)
    {event : LogEvent}
    (h : event.diagnostic? = none) :
    (p.note event).findings = p.findings := by
  simp [findings, note, diagnostics, h]

@[simp] theorem findings_openScope
    (p : Pass)
    (id : ScopeId) :
    (p.openScope id).findings = p.findings :=
  p.findings_note rfl

@[simp] theorem findings_leaveScope
    (p : Pass) :
    p.leaveScope.findings = p.findings := by
  unfold leaveScope closeScope
  split
  · exact p.findings_note rfl
  · exact p.findings_note rfl

@[simp] theorem findings_declareIn
    (p : Pass)
    (scope : ScopeId)
    (key : String)
    (symbol : Symbol)
    (position : Position) :
    (p.declareIn scope key symbol position).2.findings =
      p.findings :=
  p.findings_note rfl

@[simp] theorem findings_declareHere
    (p : Pass)
    (key : String)
    (symbol : Symbol)
    (position : Position) :
    (p.declareHere key symbol position).2.findings =
      p.findings :=
  p.findings_note rfl

@[simp] theorem findings_rememberMethod
    (p : Pass)
    (openedScope : Bool) :
    (p.rememberMethod openedScope).findings = p.findings :=
  rfl

@[simp] theorem findings_declareVariable
    (p : Pass)
    (arrayLength : Option Nat)
    (span : Span)
    (name : String) :
    (p.declareVariable arrayLength span name).findings =
      p.findings := by
  unfold declareVariable
  split
  · rename_i q hDeclare
    have hFindings := congrArg (fun r => r.2.findings) hDeclare
    simpa using hFindings.symm
  · rename_i existing storedAs q hDeclare
    have hFindings := congrArg (fun r => r.2.findings) hDeclare
    rw [q.findings_note rfl]
    simpa using hFindings.symm

@[simp] theorem findings_declareVariables
    (p : Pass)
    (definition : VarDef)
    (span : Span) :
    (p.declareVariables definition span).findings =
      p.findings := by
  unfold declareVariables
  induction definition.names generalizing p with
  | nil => rfl
  | cons name names ih =>
      rw [List.foldl_cons, ih, findings_declareVariable]

@[simp] theorem findings_openBlock
    (p : Pass)
    (id : ScopeId)
    (key : String)
    (kind : SymbolKind)
    (span : Span) :
    (p.openBlock id key kind span).findings = p.findings := by
  simp [openBlock]

@[simp] theorem findings_enterConditional
    (p : Pass)
    (conditional : Conditional)
    (span : Span) :
    (p.enterConditional conditional span).findings =
      p.findings := by
  unfold enterConditional
  split <;> simp

@[simp] theorem findings_exitMethod
    (p : Pass) :
    p.exitMethod.findings = p.findings := by
  have hForget : p.forgetMethod.2.findings = p.findings := rfl
  unfold exitMethod
  split
  · rename_i q hMethod
    rw [hMethod] at hForget
    rw [findings_leaveScope]
    exact hForget
  · rename_i q hMethod
    rw [hMethod] at hForget
    exact hForget

/- Leaving a node raises nothing. -/
theorem findings_exitNode
    (p : Pass)
    (node : Node) :
    (p.exitNode node).findings = p.findings := by
  unfold exitNode
  cases node.kind with
  | classDecl decl => exact p.findings_leaveScope
  | methodDecl decl => exact p.findings_exitMethod
  | closedConditional conditional =>
      simp only [exitConditional]
      split <;> simp
  | closedLoop => exact p.findings_leaveScope
  | _ => rfl

/- Writing the report raises nothing. -/
theorem findings_writeReport
    (p : Pass)
    (source : String) :
    (p.writeReport source).2.findings = p.findings := by
  have hKept :
      (p.reporter.writeReport source p.registry).2.diagnostics =
        p.diagnostics := by
    unfold Reporter.writeReport
    split <;> rfl
  exact congrArg
    (Findings.mk
      (p.log.toList.filterMap LogEvent.diagnostic?)) hKept

end Pass

end ScopeAnalysis

------------------------------------------------------------
-- Reporting Actions
------------------------------------------------------------

namespace ScopeAnalysis

namespace PassM

variable {α β : Type}

/-
  An action raises these diagnostics in order.  One that
  fails has raised them up to the one that it fails at, and
  only the diagnostics in front of that one were written.
-/
def Reports
    (action : PassM α)
    (p : Pass)
    (ds : List Diagnostic) : Prop :=
  action.Ensures p
    (fun _ q => q.findings = p.findings.add ds)
    (fun q =>
      ∃ front d rest,
        ds = front ++ d :: rest ∧
          q.findings = (p.findings.add front).lose d)

variable {p q : Pass}
variable {ds : List Diagnostic}

theorem reports_pure
    (a : α) :
    (pure a : PassM α).Reports p [] := by
  rw [Reports, ensures_pure, Findings.add_nil]

theorem reports_change
    {f : Pass → Pass}
    (h : (f p).findings = p.findings) :
    (change f).Reports p [] := by
  rw [Reports, ensures_change, Findings.add_nil]
  exact h

/- An action goes on from a pass that raised no more. -/
theorem Reports.behind
    {action : PassM α}
    (h : action.Reports q ds)
    (hSame : q.findings = p.findings) :
    action.Ensures q
      (fun _ r => r.findings = p.findings.add ds)
      (fun r =>
        ∃ front d rest,
          ds = front ++ d :: rest ∧
            r.findings = (p.findings.add front).lose d) := by
  rw [← hSame]
  exact h

/- A step that raises nothing comes before an action. -/
theorem Reports.afterStep
    {f : Pass → α × Pass}
    {g : α → PassM β}
    (h : (g (f p).1).Reports (f p).2 ds)
    (hSame : (f p).2.findings = p.findings) :
    (step f >>= g).Reports p ds := by
  rw [Reports, ensures_bind, ensures_step]
  exact h.behind hSame

/- A change that raises nothing comes before an action. -/
theorem Reports.afterChange
    {f : Pass → Pass}
    {g : Unit → PassM β}
    (h : (g ()).Reports (f p) ds)
    (hSame : (f p).findings = p.findings) :
    (change f >>= g).Reports p ds :=
  h.afterStep hSame

/- A question raises nothing. -/
theorem Reports.afterAsk
    {f : Pass → α}
    {g : α → PassM β}
    (h : (g (f p)).Reports p ds) :
    (ask f >>= g).Reports p ds :=
  h.afterStep rfl

/- A change that raises nothing comes after an action. -/
theorem Reports.thenChange
    {action : PassM Unit}
    (h : action.Reports p ds)
    {f : Pass → Pass}
    (hf : ∀ q, (f q).findings = q.findings) :
    (action >>= fun _ => change f).Reports p ds := by
  rw [Reports, ensures_bind]
  refine h.mono ?_ (fun _ hq => hq)
  intro _ q hq
  rw [ensures_change, hf, hq]

/- Raising a diagnostic writes it or loses it. -/
theorem ensures_report_findings
    (d : Diagnostic)
    (p : Pass) :
    (report d).Ensures p
      (fun _ q => q.findings = p.findings.add [d])
      (fun q => q.findings = p.findings.lose d) := by
  rw [Ensures, report, runOn_attempt]
  cases hWrite : p.reporter.sink.write (Reporter.lineOf d) with
  | mk outcome sink =>
      cases outcome with
      | ok done =>
          rw [Pass.report_of_emit (Reporter.emit_of_ok hWrite)]
          simp [Pass.findings, Pass.withReporter, Pass.note,
            Pass.diagnostics, Findings.add,
            LogEvent.diagnostic?]
      | error e =>
          rw [Pass.report_of_emit
            (Reporter.emit_of_error hWrite)]
          simp [Pass.findings, Pass.withReporter, Pass.note,
            Pass.diagnostics, Findings.lose,
            LogEvent.diagnostic?]

theorem reports_report
    (d : Diagnostic)
    (p : Pass) :
    (report d).Reports p [d] := by
  refine (ensures_report_findings d p).mono
    (fun _ _ hq => hq) ?_
  intro q hq
  refine ⟨[], d, [], rfl, ?_⟩
  rw [Findings.add_nil]
  exact hq

/- Diagnostics are raised one after the other. -/
theorem reports_reportAll
    (ds : List Diagnostic)
    (p : Pass) :
    (reportAll ds).Reports p ds := by
  induction ds generalizing p with
  | nil => exact reports_pure ()
  | cons d ds ih =>
      rw [reportAll, Reports, ensures_bind]
      refine (ensures_report_findings d p).mono ?_ ?_
      · intro _ q hq
        refine (ih q).mono ?_ ?_
        · intro _ r hr
          rw [hr, hq, Findings.add_append]
          rfl
        · rintro r ⟨front, e, rest, rfl, hr⟩
          refine ⟨d :: front, e, rest, rfl, ?_⟩
          rw [hr, hq, Findings.add_append]
          rfl
      · intro q hq
        refine ⟨[], d, ds, rfl, ?_⟩
        rw [Findings.add_nil]
        exact hq

end PassM

end ScopeAnalysis

------------------------------------------------------------
-- Violations
------------------------------------------------------------

namespace ScopeAnalysis

/- What is said about a call that is found to be wrong. -/
def CallVerdict.diagnostic? : CallVerdict → Option Diagnostic
| .mismatch d => some d
| .notCall => none
| .unknownTarget _ => none
| .conforms => none

/- What is said about an index that is found to be wrong. -/
def IndexVerdict.diagnostic? : IndexVerdict → Option Diagnostic
| .violation d => some d
| .accepted => none
| .unknownLength => none

/- A check of a header raises one of two codes. -/
theorem code_of_mem_headerViolations
    {options : Options}
    {decl : MethodDecl}
    {start : Position}
    {d : Diagnostic}
    (hd : d ∈ headerViolations options decl start) :
    d.code = .returnTypeMismatch ∨
      d.code = .parameterCountMismatch := by
  unfold headerViolations returnTypeViolations
    parameterCountViolations at hd
  rcases List.mem_append.mp hd with hType | hCount
  · split at hType
    · cases hType
    · rw [List.mem_singleton.mp hType]
      exact .inl rfl
  · split at hCount
    · cases hCount
    · rw [List.mem_singleton.mp hCount]
      exact .inr rfl

/- A wrong call is reported at one of two places. -/
theorem judgeCall_place
    {options : Options}
    {r : Registry}
    {expr : Expr}
    {start : Position}
    {d : Diagnostic}
    (h :
      (judgeCall options r expr start).diagnostic? =
        some d) :
    (∃ callee expected found,
        d =
          .wrongNumberOfArguments callee expected found
            start) ∨
      ∃ callee argument expected found,
        d =
          .argumentTypeMismatch callee argument expected
            found expr.position := by
  unfold judgeCall at h
  split at h
  · cases h
  · dsimp only at h
    split at h
    · cases h
    · unfold judgeArguments at h
      split at h
      · cases h
      · cases h
        exact .inl ⟨_, _, _, rfl⟩
      · cases h
        exact .inr ⟨_, _, _, _, rfl⟩

/- A wrong index is reported where its statement starts. -/
theorem judgeIndex_place
    {r : Registry}
    {assignment : Assignment}
    {start : Position}
    {d : Diagnostic}
    (h :
      (judgeIndex r assignment start).diagnostic? =
        some d) :
    d.category = .indexError ∧ d.position = start := by
  unfold judgeIndex judgeRange at h
  split at h
  · cases h
  · split at h
    · dsimp only at h
      split at h
      · cases h
      · split at h
        · cases h
        · cases h
          exact ⟨rfl, rfl⟩
    · cases h
      exact ⟨rfl, rfl⟩

/- The first wrong call among expressions. -/
def callViolation?
    (options : Options)
    (r : Registry)
    (start : Position)
    (exprs : List Expr) : Option Diagnostic :=
  exprs.findSome? fun expr =>
    (judgeCall options r expr start).diagnostic?

/-
  What a node is blamed for when it is entered with these
  options and this registry.  Calls are looked up once all
  names of their definition are declared.
-/
def Node.violations
    (options : Options)
    (r : Registry)
    (node : Node) : List Diagnostic :=
  match node.kind with
  | .classDecl decl =>
      if r.has .global (SymbolKey.classKey decl.name) then
        [.classAlreadyDefined decl.name node.span.start]
      else
        []
  | .fieldDecl decl =>
      if r.has r.current (SymbolKey.fieldKey decl.name) then
        [.fieldAlreadyDefined decl.name node.span.start]
      else
        []
  | .methodDecl decl =>
      if
          r.has r.current
            (SymbolKey.methodKey decl.signature) then
        [.methodAlreadyDefined decl.name node.span.start]
      else
        headerViolations options decl node.span.start
  | .varDef definition =>
      (callViolation? options (r.afterOps node.declarations)
        node.span.start definition.initializers).toList
  | .assignment assignment =>
      (judgeIndex r assignment
        node.span.start).diagnostic?.toList
  | .closedConditional _ => []
  | .closedLoop => []
  | .openConditional => []
  | .openLoop => []
  | .block => []
  | .expression _ => []
  | .other => []

end ScopeAnalysis

------------------------------------------------------------
-- Reporting Handlers
------------------------------------------------------------

namespace ScopeAnalysis

namespace PassM

variable {p : Pass}

theorem reports_enterClass
    (decl : ClassDecl)
    (span : Span)
    (p : Pass) :
    (enterClass decl span).Reports p
      (if
          p.registry.has .global
            (SymbolKey.classKey decl.name) then
        [.classAlreadyDefined decl.name span.start]
      else
        []) := by
  have hOpen :
      ∀ q : Pass,
        (q.openScope (.ofClass decl.name)).findings =
          q.findings :=
    fun q => q.findings_openScope _
  apply Reports.afterStep _ (p.findings_declareIn ..)
  split
  · rename_i hOutcome
    have hFree :=
      (p.registry.declared_iff _ _
        (.ofClass decl.name decl.access decl.parent)
        span.start).mp hOutcome
    rw [if_neg hFree]
    exact reports_change (hOpen _)
  · rename_i existing storedAs hOutcome
    have hTaken :=
      Registry.has_of_conflict
        (.ofClass decl.name decl.access decl.parent)
        span.start hOutcome
    rw [if_pos hTaken]
    exact (reports_report _ _).thenChange hOpen

theorem reports_declareField
    (decl : FieldDecl)
    (span : Span)
    (p : Pass) :
    (declareField decl span).Reports p
      (if
          p.registry.has p.registry.current
            (SymbolKey.fieldKey decl.name) then
        [.fieldAlreadyDefined decl.name span.start]
      else
        []) := by
  apply Reports.afterStep _ (p.findings_declareHere ..)
  split
  · rename_i hOutcome
    have hFree :=
      (p.registry.declared_iff _ _
        (.ofField decl.name decl.type decl.access)
        span.start).mp hOutcome
    rw [if_neg hFree]
    exact reports_pure ()
  · rename_i existing storedAs hOutcome
    have hTaken :=
      Registry.has_of_conflict
        (.ofField decl.name decl.type decl.access)
        span.start hOutcome
    rw [if_pos hTaken]
    exact reports_report _ _

theorem reports_enterMethod
    (decl : MethodDecl)
    (span : Span)
    (p : Pass) :
    (enterMethod decl span).Reports p
      (if
          p.registry.has p.registry.current
            (SymbolKey.methodKey decl.signature) then
        [.methodAlreadyDefined decl.name span.start]
      else
        headerViolations p.options decl span.start) := by
  apply Reports.afterStep _ (p.findings_declareHere ..)
  split
  · rename_i existing storedAs hOutcome
    have hTaken :=
      Registry.has_of_conflict
        (.ofMethod decl.name decl.returnType decl.access
          decl.formals)
        span.start hOutcome
    rw [if_pos hTaken]
    exact (reports_report _ _).afterChange
      (Pass.findings_rememberMethod _ _)
  · rename_i hOutcome
    have hFree :=
      (p.registry.declared_iff _ _
        (.ofMethod decl.name decl.returnType decl.access
          decl.formals)
        span.start).mp hOutcome
    rw [if_neg hFree]
    apply Reports.afterChange _ (Pass.findings_openScope _ _)
    apply Reports.afterChange _
      (Pass.findings_rememberMethod _ _)
    apply Reports.afterAsk
    exact reports_reportAll _ _

/- A check that finds a call wrong raises one diagnostic. -/
theorem ensures_checkCall_of_some
    {expr : Expr}
    {span : Span}
    {d : Diagnostic}
    (h :
      (judgeCall p.options p.registry expr
        span.start).diagnostic? = some d) :
    (checkCall expr span).Ensures p
      (fun wrong q =>
        wrong = true ∧ q.findings = p.findings.add [d])
      (fun q => q.findings = p.findings.lose d) := by
  rw [checkCall, ensures_bind, ensures_ask]
  cases hVerdict :
      judgeCall p.options p.registry expr span.start with
  | mismatch e =>
      rw [hVerdict] at h
      cases h
      rw [ensures_bind]
      refine (ensures_report_findings d p).mono ?_
        (fun _ hq => hq)
      intro _ q hq
      exact (ensures_pure _ _ _ _).mpr ⟨rfl, hq⟩
  | notCall => simp [hVerdict, CallVerdict.diagnostic?] at h
  | unknownTarget key =>
      simp [hVerdict, CallVerdict.diagnostic?] at h
  | conforms => simp [hVerdict, CallVerdict.diagnostic?] at h

/- Any other check changes nothing that matters to checks. -/
theorem ensures_checkCall_of_none
    {expr : Expr}
    {span : Span}
    (h :
      (judgeCall p.options p.registry expr
        span.start).diagnostic? = none) :
    (checkCall expr span).Ensures p
      (fun wrong q =>
        wrong = false ∧ q.findings = p.findings ∧
          q.registry = p.registry ∧ q.options = p.options)
      (fun _ => False) := by
  rw [checkCall, ensures_bind, ensures_ask]
  cases hVerdict :
      judgeCall p.options p.registry expr span.start with
  | mismatch e => simp [hVerdict, CallVerdict.diagnostic?] at h
  | notCall => exact ⟨rfl, rfl, rfl, rfl⟩
  | conforms => exact ⟨rfl, rfl, rfl, rfl⟩
  | unknownTarget key =>
      rw [ensures_bind, ensures_change]
      exact ⟨rfl, p.findings_note rfl, rfl, rfl⟩

/- Only the first wrong call is reported. -/
theorem reports_checkCalls
    (span : Span)
    (exprs : List Expr)
    (p : Pass) :
    (checkCalls span exprs).Reports p
      (callViolation? p.options p.registry span.start
        exprs).toList := by
  induction exprs generalizing p with
  | nil => exact reports_pure ()
  | cons expr exprs ih =>
      rw [checkCalls, Reports, ensures_bind, callViolation?,
        List.findSome?_cons]
      cases hVerdict :
          (judgeCall p.options p.registry expr
            span.start).diagnostic? with
      | none =>
          refine (ensures_checkCall_of_none hVerdict).mono ?_
            (fun _ hq => hq.elim)
          rintro _ q ⟨rfl, hSame, hRegistry, hOptions⟩
          have hRest := ih q
          rw [hRegistry, hOptions] at hRest
          exact hRest.behind hSame
      | some d =>
          refine (ensures_checkCall_of_some hVerdict).mono ?_ ?_
          · rintro _ q ⟨rfl, hq⟩
            exact (ensures_pure _ _ _ _).mpr hq
          · intro q hq
            refine ⟨[], d, [], rfl, ?_⟩
            rw [Findings.add_nil]
            exact hq

theorem reports_defineVariables
    (definition : VarDef)
    (span : Span)
    (p : Pass) :
    (defineVariables definition span).Reports p
      (callViolation? p.options
        (p.registry.afterOps
          (definition.names.map (definition.declare span)))
        span.start definition.initializers).toList := by
  have hOptions :
      (p.declareVariables definition span).options =
        p.options :=
    (Pass.lasting_settings
      (fun settings => settings.2 = p.options)
      ).declareVariables definition span rfl
  have hRegistry :
      (p.declareVariables definition span).registry =
        p.registry.afterOps
          (definition.names.map
            (definition.declare span)) :=
    congrArg Frame.registry
      (p.frame_declareVariables definition span)
  have hCalls :=
    reports_checkCalls span definition.initializers
      (p.declareVariables definition span)
  rw [hOptions, hRegistry] at hCalls
  exact hCalls.afterChange (p.findings_declareVariables _ _)

theorem reports_checkAssignment
    (assignment : Assignment)
    (span : Span)
    (p : Pass) :
    (checkAssignment assignment span).Reports p
      (judgeIndex p.registry assignment
        span.start).diagnostic?.toList := by
  apply Reports.afterAsk
  cases judgeIndex p.registry assignment span.start with
  | accepted => exact reports_pure ()
  | unknownLength =>
      exact reports_change (p.findings_note rfl)
  | violation d => exact reports_report d p

/- Entering a node raises what the node is blamed for. -/
theorem reports_enterNode
    (node : Node)
    (p : Pass) :
    (enterNode node).Reports p
      (node.violations p.options p.registry) := by
  unfold enterNode Node.violations Node.declarations
  cases node.kind with
  | classDecl decl => exact reports_enterClass decl _ p
  | fieldDecl decl => exact reports_declareField decl _ p
  | methodDecl decl => exact reports_enterMethod decl _ p
  | varDef definition =>
      exact reports_defineVariables definition _ p
  | assignment assignment =>
      exact reports_checkAssignment assignment _ p
  | closedConditional conditional =>
      exact reports_change (p.findings_enterConditional _ _)
  | closedLoop =>
      exact reports_change (p.findings_openBlock _ _ _ _)
  | openConditional => exact reports_pure ()
  | openLoop => exact reports_pure ()
  | block => exact reports_pure ()
  | expression expr => exact reports_pure ()
  | other => exact reports_pure ()

end PassM

end ScopeAnalysis

------------------------------------------------------------
-- Visits
------------------------------------------------------------

namespace ScopeAnalysis

/- An action that is done has written all it raises. -/
theorem PassM.Reports.diagnostics_of_ok
    {α : Type}
    {action : PassM α}
    {p q : Pass}
    {ds : List Diagnostic}
    {a : α}
    (h : action.Reports p ds)
    (hRun : action.runOn p = (.ok a, q)) :
    q.diagnostics = p.diagnostics ++ ds :=
  congrArg Findings.written (Ensures.of_ok h hRun)

/- A visit raises what its node is blamed for there. -/
theorem Visit.raised_eq
    {v : Visit}
    (hv : v.before.Writing) :
    v.raised =
      v.node.violations v.before.options
        v.before.registry := by
  rcases (PassM.diagnosing_enterNode v.node).proceeds hv with
    ⟨_, q, hRun, _, _⟩
  have hAfter : v.after = q := congrArg Prod.snd hRun
  have hRaised :=
    (PassM.reports_enterNode v.node
      v.before).diagnostics_of_ok hRun
  rw [Visit.raised, hAfter, hRaised, List.drop_left]

end ScopeAnalysis
