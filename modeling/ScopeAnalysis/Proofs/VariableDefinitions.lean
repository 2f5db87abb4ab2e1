import ScopeAnalysis.Proofs.CallChecks
import ScopeAnalysis.Proofs.CallTargets
import ScopeAnalysis.Proofs.Discovery
import ScopeAnalysis.Proofs.EntryKeys

/-
  What a definition of variables stores and raises.

  Key definitions include:
    * `Registry.Reachable`
    * `Registry.Appends`
    * `VarDef.Enters`
    * `Pass.Continues`
    * `Pass.BreaksWith`
    * `EndsChecks`
    * `DefinesVariables`
    * `Findings.Begins`

  Key theorems include:
    * `Pass.reachable_afterMoves`
    * `Registry.appends_declareHere`
    * `Registry.appends_declareVariables`
    * `exists_checkCalls`
    * `definesVariables`

  All names are stored before the first initializer is looked
  at, so neither a wrong call nor a sink that fails keeps one
  of them out.  The table grows at its end only, by an entry
  for every name, and the checks see all of these entries.
-/

------------------------------------------------------------
-- Reachable Registries
------------------------------------------------------------

namespace ScopeAnalysis

namespace Registry

/- A registry that some history leads to. -/
def Reachable (r : Registry) : Prop :=
  ∃ ops, r = initial.afterOps ops

theorem Reachable.afterOps
    {r : Registry}
    (h : r.Reachable)
    (ops : List RegistryOp) :
    (r.afterOps ops).Reachable := by
  rcases h with ⟨before, rfl⟩
  exact ⟨before ++ ops, (afterOps_append _ _ _).symm⟩

/- What is open in a reachable registry was discovered. -/
theorem Reachable.current_mem
    {r : Registry}
    (h : r.Reachable) :
    r.current ∈ r.discoveryOrder := by
  rcases h with ⟨ops, rfl⟩
  exact
    (Discovers.initial.afterOps ops).openScopes _
      (current_mem_openScopes _)

end Registry

/- Every history of a pass leads to such a registry. -/
theorem Pass.reachable_afterMoves
    (options : Options)
    (sink : Sink)
    (steps : List (Sink × Move)) :
    ((start options sink).afterMoves
      steps).registry.Reachable := by
  have hEnduring :
      Enduring fun p => p.registry.Reachable := by
    apply enduring_of_registry
    · intro node r h
      exact h.afterOps _
    · intro node r h
      exact h.afterOps _
    · intro r h
      exact h.afterOps [.exit]
  exact hEnduring.afterMoves steps ⟨[], rfl⟩

end ScopeAnalysis

------------------------------------------------------------
-- Growing Tables
------------------------------------------------------------

namespace ScopeAnalysis

/- A value at a new key becomes the last entry. -/
theorem Entries.put_of_new
    {κ α : Type}
    [DecidableEq κ]
    {k : κ}
    (v : α)
    {es : List (κ × α)}
    (h : k ∉ es.map Prod.fst) :
    put k v es = es ++ [(k, v)] := by
  induction es with
  | nil => rfl
  | cons e es ih =>
      rw [List.map_cons, List.mem_cons, not_or] at h
      rw [put, if_neg (Ne.symm h.1), ih h.2,
        List.cons_append]

namespace Registry

/-
  Between two registries the table of the innermost open
  scope has grown at its end by some entries, and nothing
  else is different.
-/
structure Appends
    (r s : Registry)
    (news : List (String × Symbol)) : Prop where
  entries :
    (s.tableOf r.current).entries =
      (r.tableOf r.current).entries ++ news
  others :
    ∀ id, id ≠ r.current → s.table? id = r.table? id
  order : s.discoveryOrder = r.discoveryOrder
  inner : s.inner = r.inner

namespace Appends

variable {r s t : Registry}
variable {news more : List (String × Symbol)}

theorem refl (r : Registry) :
    r.Appends r [] :=
  ⟨(List.append_nil _).symm, fun _ _ => rfl, rfl, rfl⟩

/- The innermost open scope stays the same. -/
theorem current
    (h : r.Appends s news) :
    s.current = r.current := by
  rw [Registry.current, h.inner, Registry.current]

theorem openScopes
    (h : r.Appends s news) :
    s.openScopes = r.openScopes := by
  rw [Registry.openScopes, h.inner, Registry.openScopes]

theorem size
    (h : r.Appends s news) :
    (s.tableOf r.current).size =
      (r.tableOf r.current).size + news.length := by
  rw [OrderedMap.size, h.entries, List.length_append,
    OrderedMap.size]

theorem trans
    (h : r.Appends s news)
    (h' : s.Appends t more) :
    r.Appends t (news ++ more) := by
  refine ⟨?_, ?_, h'.order.trans h.order,
    h'.inner.trans h.inner⟩
  · rw [← List.append_assoc, ← h.entries, ← h.current]
    exact h'.entries
  · intro id hOther
    rw [h'.others id (by rwa [h.current]),
      h.others id hOther]

end Appends

/- A declaration here brings one entry, at a free place. -/
theorem appends_declareHere
    {r : Registry}
    (h : r.current ∈ r.discoveryOrder)
    (key : String)
    (symbol : Symbol)
    (position : Position) :
    r.Appends
      (r.declare r.current key symbol position).2
      [ ( ((r.tableOf r.current).outcome key
            position).place key,
          symbol ) ] := by
  refine ⟨?_, ?_, ?_, rfl⟩
  · rw [tableOf_declare_self]
    apply Entries.put_of_new
    exact
      (OrderedMap.get?_eq_none_iff _ _).mp
        ((r.tableOf r.current).get?_place key position)
  · intro id hOther
    exact OrderedMap.get?_put_of_ne _ _ hOther
  · have hKeys :=
      r.scopes.keys_put r.current
        ((r.tableOf r.current).store key symbol position)
    exact hKeys.trans (if_pos h)

end Registry

/- A symbol is stored at its key or at an alias of it. -/
theorem ScopeTable.spelledFrom_place
    (t : ScopeTable)
    (key : String)
    (position : Position) :
    SpelledFrom key
      ((t.outcome key position).place key) := by
  unfold outcome
  cases t.get? key with
  | none => exact .bare
  | some existing => exact t.spelledFrom_freeAlias key position

/-
  An entry that a name of a definition brings: a variable of
  that name with the line where the definition starts and
  with its array length, at the key of the name or an alias.
-/
structure VarDef.Enters
    (definition : VarDef)
    (span : Span)
    (name : String)
    (entry : String × Symbol) : Prop where
  spelled : SpelledFrom ("var_" ++ name) entry.1
  kind : entry.2.kind = .var
  called : entry.2.name = name
  line : entry.2.firstLine = some span.start.line
  length : entry.2.arrayLength = definition.arrayLength
  plain :
    entry.2.type = none ∧
      entry.2.access = none ∧
        entry.2.inherits = none ∧
          entry.2.parameters = []

/- Every name brings one entry, whatever it is called. -/
theorem Registry.appends_declareVariables
    {r : Registry}
    (h : r.current ∈ r.discoveryOrder)
    (definition : VarDef)
    (span : Span)
    (names : List String) :
    ∃ news,
      List.Forall₂ (definition.Enters span) names news ∧
        r.Appends
          (r.afterOps (names.map (definition.declare span)))
          news := by
  induction names generalizing r with
  | nil => exact ⟨[], .nil, .refl r⟩
  | cons name names ih =>
      have hOne :=
        appends_declareHere h (SymbolKey.variableKey name)
          { Symbol.ofVariable name span.startLine with
            arrayLength := definition.arrayLength }
          span.start
      have hStill := h
      rw [← hOne.order, ← hOne.current] at hStill
      rcases ih hStill with ⟨news, hNews, hRest⟩
      refine ⟨_ :: news, .cons ?_ hNews, hOne.trans hRest⟩
      exact
        { spelled :=
            (r.tableOf r.current).spelledFrom_place
              (SymbolKey.variableKey name) span.start
          kind := rfl
          called := rfl
          line := rfl
          length := rfl
          plain := ⟨rfl, rfl, rfl, rfl⟩ }

end ScopeAnalysis

------------------------------------------------------------
-- Checks In Order
------------------------------------------------------------

namespace ScopeAnalysis

/- The check of a call ends well and the next one follows. -/
def Pass.Continues
    (p : Pass)
    (expr : Expr)
    (span : Span) : Prop :=
  ∃ q, (PassM.checkCall expr span).runOn p = (.ok false, q)

/- The check of a call raises one diagnostic and breaks. -/
def Pass.BreaksWith
    (p : Pass)
    (expr : Expr)
    (span : Span)
    (d : Diagnostic) : Prop :=
  ∃ q,
    (PassM.checkCall expr span).runOn p = (.ok true, q) ∧
      q.diagnostics = p.diagnostics ++ [d]

/-
  How checks of expressions from `p` end in `q`.  Either all
  calls continue, or a first one breaks.  What stands behind
  that one is not checked: the state would be the same with
  anything else there.
-/
inductive EndsChecks
    (span : Span)
    (p q : Pass) : List Expr → Prop
| through
    {exprs : List Expr}
    (hAll :
      ∀ expr ∈ exprs,
        '(' ∈ expr.text.toList → p.Continues expr span)
    (hRaised : q.diagnostics = p.diagnostics) :
    EndsChecks span p q exprs
| broken
    {front rest : List Expr}
    {expr : Expr}
    {d : Diagnostic}
    (hFront :
      ∀ earlier ∈ front,
        '(' ∈ earlier.text.toList →
          p.Continues earlier span)
    (hCall : '(' ∈ expr.text.toList)
    (hBreaks : p.BreaksWith expr span d)
    (hRaised : q.diagnostics = p.diagnostics ++ [d])
    (hUnchecked :
      ∀ others,
        (PassM.checkCalls span
            (front ++ expr :: others)).runOn p =
          (.ok (), q)) :
    EndsChecks span p q (front ++ expr :: rest)

variable {p : Pass}
variable {span : Span}

/- A call that has nothing wrong continues. -/
theorem Pass.continues_of_none
    {expr : Expr}
    (h :
      (judgeCall p.options p.registry expr
        span.start).diagnostic? = none) :
    p.Continues expr span := by
  rcases PassM.runOn_checkCall_of_none h with ⟨log, hRun⟩
  exact ⟨_, hRun⟩

/- Checks go on behind calls that have nothing wrong. -/
theorem PassM.runOn_checkCalls_append
    {front : List Expr}
    (h :
      ∀ expr ∈ front,
        (judgeCall p.options p.registry expr
          span.start).diagnostic? = none) :
    ∃ log,
      ∀ rest,
        (checkCalls span (front ++ rest)).runOn p =
          (checkCalls span rest).runOn
            { p with log := log } := by
  induction front generalizing p with
  | nil => exact ⟨p.log, fun _ => rfl⟩
  | cons expr front ih =>
      rcases List.forall_mem_cons.mp h with ⟨hExpr, hFront⟩
      rcases runOn_checkCall_of_none hExpr with ⟨log, hRun⟩
      rcases ih (p := { p with log := log }) hFront with
        ⟨last, hRest⟩
      refine ⟨last, ?_⟩
      intro rest
      rw [List.cons_append, checkCalls, runOn_bind, hRun]
      exact hRest rest

/- Over a sink that never fails all checks end in this way. -/
theorem exists_checkCalls
    (hSink : p.reporter.sink.NeverFails)
    (span : Span)
    (exprs : List Expr) :
    ∃ q,
      (PassM.checkCalls span exprs).runOn p = (.ok (), q) ∧
        EndsChecks span p q exprs := by
  cases hFirst :
      callViolation? p.options p.registry span.start
        exprs with
  | none =>
      have hNone := List.findSome?_eq_none_iff.mp hFirst
      rcases PassM.runOn_checkCalls_append hNone with
        ⟨log, hRun⟩
      have hEnd := hRun []
      rw [List.append_nil] at hEnd
      exact
        ⟨_, hEnd, .through
          (fun expr hExpr _ =>
            Pass.continues_of_none (hNone expr hExpr))
          rfl⟩
  | some d =>
      rcases List.findSome?_eq_some_iff.mp hFirst with
        ⟨front, expr, rest, rfl, hFault, hNone⟩
      rcases PassM.runOn_checkCalls_append hNone with
        ⟨log, hRun⟩
      rcases Pass.exists_report
          (p := { p with log := log }) hSink d with
        ⟨q, hReport, _, hRaised⟩
      have hBroken :
          ∀ others,
            (PassM.checkCalls span
                (front ++ expr :: others)).runOn p =
              (.ok (), q) := by
        intro others
        have hHere :=
          PassM.runOn_checkCall_of_some
            (p := { p with log := log }) hFault
        rw [hReport] at hHere
        rw [hRun, PassM.checkCalls, PassM.runOn_bind, hHere]
        rfl
      rcases judgeCall_fault_iff.mp hFault with
        ⟨callee, _, hCalls, _⟩
      rcases PassM.exists_checkCall hSink expr span with
        ⟨alone, hAlone, _, hAloneRaised⟩
      rw [hFault] at hAlone hAloneRaised
      exact
        ⟨q, hBroken rest, .broken
          (fun earlier hEarlier _ =>
            Pass.continues_of_none (hNone earlier hEarlier))
          hCalls.mem_text ⟨alone, hAlone, hAloneRaised⟩
          hRaised hBroken⟩

end ScopeAnalysis

------------------------------------------------------------
-- Definitions
------------------------------------------------------------

namespace ScopeAnalysis

variable {p : Pass}

/- A definition stores its names even if the sink fails. -/
theorem PassM.registry_defineVariables
    (definition : VarDef)
    (span : Span)
    (p : Pass) :
    ((defineVariables definition span).runOn
        p).2.registry =
      p.registry.afterOps
        (definition.names.map (definition.declare span)) := by
  have hDeclared :=
    p.frame_declareVariables definition span
  have hRun :
      (defineVariables definition span).Ensures p
        (fun _ q =>
          q.frame =
            (p.declareVariables definition span).frame)
        (fun q =>
          q.frame =
            (p.declareVariables definition span).frame) := by
    rw [defineVariables, ensures_bind, ensures_change]
    exact ensures_checkCalls_frame span _ rfl
  exact congrArg Frame.registry (hRun.after.trans hDeclared)

/-
  How the definition of variables from `p` ends, and in what
  state `q`.  Each name in order has brought one entry to the
  innermost open scope, and the registry is the same besides.
  The checks see all the names.  They raise one diagnostic at
  most, none of a duplicate, and only what was raised can be
  written.  Over a sink that never fails they end as checks
  in order do.
-/
structure DefinesVariables
    (definition : VarDef)
    (span : Span)
    (p : Pass)
    (outcome : Except SinkError Unit)
    (q : Pass) : Prop where
  appends :
    ∃ news,
      List.Forall₂ (definition.Enters span)
          definition.names news ∧
        p.registry.Appends q.registry news
  size :
    (q.registry.tableOf p.registry.current).size =
      (p.registry.tableOf p.registry.current).size +
        definition.names.length
  openScopes :
    q.registry.openScopes = p.registry.openScopes
  declared :
    (p.declareVariables definition span).registry =
        q.registry ∧
      (p.declareVariables definition span).diagnostics =
        p.diagnostics
  raised :
    ∃ made kept : List Diagnostic,
      made.length ≤ 1 ∧
        (∀ d ∈ made, d.category ≠ .duplicateDefinition) ∧
          q.findings.raised = p.findings.raised ++ made ∧
            kept <+: made ∧
              q.diagnostics = p.diagnostics ++ kept
  checked :
    p.reporter.sink.NeverFails →
      outcome = .ok () ∧
        EndsChecks span (p.declareVariables definition span)
          q definition.initializers

/- What is about a call is not about a definition. -/
theorem Diagnostic.AboutCall.category_ne
    {d : Diagnostic}
    (h : d.AboutCall) :
    d.category ≠ .duplicateDefinition := by
  unfold category
  rcases h with hCode | hCode
  · rw [hCode]
    decide
  · rw [hCode]
    decide

/-
  Some of these diagnostics were raised since, as far as they
  go, and some of those were written.
-/
def Findings.Begins
    (f : Findings)
    (ds : List Diagnostic)
    (g : Findings) : Prop :=
  ∃ made kept,
    kept <+: made ∧
      made <+: ds ∧
        g.raised = f.raised ++ made ∧
          g.written = f.written ++ kept

/- However an action ends, it has begun to raise and write. -/
theorem PassM.Reports.begins
    {action : PassM Unit}
    {ds : List Diagnostic}
    (h : action.Reports p ds) :
    p.findings.Begins ds (action.runOn p).2.findings := by
  have hEither :
      action.Ensures p
        (fun _ q => p.findings.Begins ds q.findings)
        (fun q => p.findings.Begins ds q.findings) := by
    refine h.mono ?_ ?_
    · intro _ q hq
      exact
        ⟨ds, ds, List.prefix_refl _, List.prefix_refl _,
          congrArg Findings.raised hq,
          congrArg Findings.written hq⟩
    · rintro q ⟨front, d, rest, rfl, hq⟩
      have hRaised := congrArg Findings.raised hq
      rw [Findings.lose, Findings.add, List.append_assoc]
        at hRaised
      exact
        ⟨front ++ [d], front, List.prefix_append _ _,
          ⟨rest, by simp⟩, hRaised,
          congrArg Findings.written hq⟩
  exact hEither.after

/- Every definition from a reachable registry is like this. -/
theorem definesVariables
    (definition : VarDef)
    (span : Span)
    (p : Pass)
    (hReachable : p.registry.Reachable) :
    ∃ outcome q,
      (PassM.defineVariables definition span).runOn p =
          (outcome, q) ∧
        DefinesVariables definition span p outcome q := by
  have hRegistry :=
    PassM.registry_defineVariables definition span p
  have hReports :=
    PassM.reports_defineVariables definition span p
  rcases hReports.begins with
    ⟨made, kept, hKept, hMade, hRaised, hWritten⟩
  have hDeclared :=
    p.frame_declareVariables definition span
  have hSilent := Pass.silent_declareVariables definition span
  have hReporter := hSilent.reporter_eq p
  rcases Registry.appends_declareVariables
      hReachable.current_mem definition span
      definition.names with
    ⟨news, hNews, hAppends⟩
  rw [← hRegistry] at hAppends
  cases hRun :
      (PassM.defineVariables definition span).runOn p with
  | mk outcome q =>
      rw [hRun] at hRegistry hRaised hWritten hAppends
      have hSize := hAppends.size
      rw [← hNews.length_eq] at hSize
      refine
        ⟨outcome, q, rfl, ⟨news, hNews, hAppends⟩, hSize,
          hAppends.openScopes, ?_,
          ⟨made, kept, ?_, ?_, hRaised, hKept, hWritten⟩, ?_⟩
      · exact
          ⟨(congrArg Frame.registry hDeclared).trans
              hRegistry.symm,
            congrArg Reporter.diagnostics hReporter⟩
      · exact hMade.length_le.trans Option.length_toList_le
      · intro d hd
        rcases List.exists_of_findSome?_eq_some
            (Option.mem_toList.mp (hMade.subset hd)) with
          ⟨expr, _, hFault⟩
        exact (aboutCall_of_judgeCall hFault).category_ne
      · intro hSink
        rw [← hReporter] at hSink
        rcases exists_checkCalls hSink span
            definition.initializers with
          ⟨last, hLast, hEnds⟩
        rw [PassM.defineVariables, PassM.runOn_bind,
          PassM.runOn_change] at hRun
        dsimp only at hRun
        rw [hLast] at hRun
        cases hRun
        exact ⟨rfl, hEnds⟩

/- Look calls up among the variables. -/
def Options.amongVariables : Options where
  returnTypeRule := .disabled
  targetLead := "var_"

/-
  Both declarations of `x` are kept, the second one under an
  alias, and the call of `x` sees them: a variable takes no
  arguments.
-/
theorem definesVariables_twice :
    (Pass.start .amongVariables
        .unlimited).registry.Reachable ∧
      ∃ q,
        (PassM.defineVariables
            ⟨["x", "x"], [⟨"x(1)", 1, 6⟩], some 3⟩
            (.token 1 0)).runOn
            (.start .amongVariables .unlimited) =
          (.ok (), q) ∧
          (q.registry.tableOf .global).size = 2 ∧
          (q.registry.tableOf .global).entries =
            [ ("var_x",
                { kind := .var
                  name := "x"
                  type := none
                  access := none
                  inherits := none
                  parameters := []
                  firstLine := some 1
                  arrayLength := some 3 }),
              ("var_x_1_0",
                { kind := .var
                  name := "x"
                  type := none
                  access := none
                  inherits := none
                  parameters := []
                  firstLine := some 1
                  arrayLength := some 3 }) ] ∧
          q.diagnostics =
            [.wrongNumberOfArguments "x" 0 1 ⟨1, 0⟩] := by
  have hReachable :
      (Pass.start .amongVariables
        .unlimited).registry.Reachable :=
    Pass.reachable_afterMoves .amongVariables .unlimited []
  have hSink :
      (Pass.start .amongVariables
        .unlimited).reporter.sink.NeverFails :=
    Sink.neverFails_of_unlimited rfl
  rcases definesVariables
      ⟨["x", "x"], [⟨"x(1)", 1, 6⟩], some 3⟩ (.token 1 0)
      (.start .amongVariables .unlimited) hReachable with
    ⟨outcome, q, hRun, hDefines⟩
  rcases hDefines.checked hSink with ⟨rfl, _⟩
  refine ⟨hReachable, q, hRun, hDefines.size, ?_, ?_⟩
  · have hStored := congrArg (fun r => r.2.registry) hRun
    rw [← hStored]
    decide +kernel
  · have hRaised := congrArg (fun r => r.2.diagnostics) hRun
    rw [← hRaised]
    decide +kernel

end ScopeAnalysis
