import ScopeAnalysis.Analysis
import ScopeAnalysis.Proofs.Ensures

/-
  Opening and closing over a whole walk.

  Key definitions include:
    * `Nesting`
    * `Nesting.leave`
    * `Nesting.Within`
    * `Pass.nesting`
    * `PassM.Enters`

  Key theorems include:
    * `Pass.nesting_exitNode`
    * `PassM.enters_enterNode`
    * `PassM.ensures_walk_nesting`
    * `PassM.walk_balanced`

  Entering a node opens what leaving it closes, whatever
  stands between the two, as long as that is balanced
  itself.  Where the walk is cut short, all that was open
  before is still open below what was opened since.
-/

------------------------------------------------------------
-- Nestings
------------------------------------------------------------

namespace ScopeAnalysis

/-
  What the openings and closings of a pass have come to: the
  scopes open above the global one and the open methods,
  both innermost first, and how often a closing met no scope
  to close.
-/
structure Nesting where
  scopes : List ScopeId
  methods : List Bool
  ignoredExits : Nat

namespace Nesting

/- Open a scope. -/
def openScope
    (n : Nesting)
    (id : ScopeId) : Nesting :=
  { n with scopes := id :: n.scopes }

/- Close the innermost scope, if there is one to close. -/
def closeScope (n : Nesting) : Nesting :=
  match n.scopes with
  | [] => { n with ignoredExits := n.ignoredExits + 1 }
  | _ :: outer => { n with scopes := outer }

/- Enter a method that opened a scope, or that did not. -/
def enterMethod
    (n : Nesting)
    (openedScope : Bool) : Nesting :=
  { n with methods := openedScope :: n.methods }

/- Leave a method and close its scope, if it has one. -/
def exitMethod (n : Nesting) : Nesting :=
  match n.methods with
  | [] => n
  | true :: outer =>
      closeScope { n with methods := outer }
  | false :: outer => { n with methods := outer }

/- Leave a node of the given kind. -/
def leave (n : Nesting) : NodeKind → Nesting
| .classDecl _ => n.closeScope
| .methodDecl _ => n.exitMethod
| .closedConditional conditional =>
    if conditional.hasElse then
      n.closeScope.closeScope
    else
      n.closeScope
| .closedLoop => n.closeScope
| .fieldDecl _ => n
| .varDef _ => n
| .assignment _ => n
| .openConditional => n
| .openLoop => n
| .block => n
| .expression _ => n
| .other => n

/- What is open in one nesting is open in the other. -/
structure Within (a b : Nesting) : Prop where
  scopes : a.scopes <:+ b.scopes
  methods : a.methods <:+ b.methods
  ignoredExits : b.ignoredExits = a.ignoredExits

theorem Within.refl
    (a : Nesting) :
    a.Within a :=
  ⟨List.suffix_refl _, List.suffix_refl _, rfl⟩

theorem Within.trans
    {a b c : Nesting}
    (h₁ : a.Within b)
    (h₂ : b.Within c) :
    a.Within c :=
  ⟨h₁.scopes.trans h₂.scopes,
    h₁.methods.trans h₂.methods,
    h₂.ignoredExits.trans h₁.ignoredExits⟩

theorem within_openScope
    (n : Nesting)
    (id : ScopeId) :
    n.Within (n.openScope id) :=
  ⟨List.suffix_cons _ _, List.suffix_refl _, rfl⟩

theorem within_enterMethod
    (n : Nesting)
    (openedScope : Bool) :
    n.Within (n.enterMethod openedScope) :=
  ⟨List.suffix_refl _, List.suffix_cons _ _, rfl⟩

end Nesting

end ScopeAnalysis

------------------------------------------------------------
-- The Nesting Of A Pass
------------------------------------------------------------

namespace ScopeAnalysis

namespace Pass

/- What a pass has open. -/
def nesting (p : Pass) : Nesting where
  scopes := p.registry.inner
  methods := p.openMethods.flags
  ignoredExits := p.log.toList.count .globalExitIgnored

theorem nesting_note
    (p : Pass)
    {event : LogEvent}
    (h : event ≠ .globalExitIgnored) :
    (p.note event).nesting = p.nesting := by
  simp [nesting, note, h]

@[simp] theorem nesting_openScope
    (p : Pass)
    (id : ScopeId) :
    (p.openScope id).nesting = p.nesting.openScope id := by
  simp [nesting, openScope, note, Registry.enter,
    Nesting.openScope]

@[simp] theorem nesting_leaveScope
    (p : Pass) :
    p.leaveScope.nesting = p.nesting.closeScope := by
  unfold leaveScope closeScope Registry.exit
  cases hInner : p.registry.inner with
  | nil =>
      simp [nesting, note, Nesting.closeScope, hInner]
  | cons id outer =>
      simp [nesting, note, Nesting.closeScope, hInner]

@[simp] theorem nesting_declareIn
    (p : Pass)
    (scope : ScopeId)
    (key : String)
    (symbol : Symbol)
    (position : Position) :
    (p.declareIn scope key symbol position).2.nesting =
      p.nesting := by
  simp [nesting, declareIn, note, Registry.declare]

@[simp] theorem nesting_declareHere
    (p : Pass)
    (key : String)
    (symbol : Symbol)
    (position : Position) :
    (p.declareHere key symbol position).2.nesting =
      p.nesting :=
  p.nesting_declareIn _ key symbol position

@[simp] theorem nesting_rememberMethod
    (p : Pass)
    (openedScope : Bool) :
    (p.rememberMethod openedScope).nesting =
      p.nesting.enterMethod openedScope :=
  rfl

@[simp] theorem nesting_report
    (p : Pass)
    (d : Diagnostic) :
    (p.report d).2.nesting = p.nesting := by
  simp [nesting, report, note]

@[simp] theorem nesting_exitMethod
    (p : Pass) :
    p.exitMethod.nesting = p.nesting.exitMethod := by
  have hFlags : p.nesting.methods = p.openMethods.flags :=
    rfl
  unfold exitMethod forgetMethod OpenMethods.exit
    Nesting.exitMethod
  rw [hFlags]
  cases hMethods : p.openMethods.flags with
  | nil => simp [nesting, hMethods]
  | cons openedScope outer =>
      cases openedScope with
      | true => exact nesting_leaveScope _
      | false => rfl

/- Leaving a node changes the nesting by its kind alone. -/
theorem nesting_exitNode
    (p : Pass)
    (node : Node) :
    (p.exitNode node).nesting =
      p.nesting.leave node.kind := by
  unfold exitNode Nesting.leave
  cases node.kind with
  | classDecl decl => exact p.nesting_leaveScope
  | methodDecl decl => exact p.nesting_exitMethod
  | closedConditional conditional =>
      simp only [exitConditional]
      split <;> simp
  | closedLoop => exact p.nesting_leaveScope
  | fieldDecl decl => rfl
  | varDef definition => rfl
  | assignment assignment => rfl
  | openConditional => rfl
  | openLoop => rfl
  | block => rfl
  | expression expr => rfl
  | other => rfl

end Pass

end ScopeAnalysis

------------------------------------------------------------
-- Entering A Node
------------------------------------------------------------

namespace ScopeAnalysis

namespace Pass

@[simp] theorem nesting_declareVariable
    (p : Pass)
    (arrayLength : Option Nat)
    (span : Span)
    (name : String) :
    (p.declareVariable arrayLength span name).nesting =
      p.nesting := by
  unfold declareVariable
  split
  · rename_i q hDeclare
    have hNesting := congrArg (fun r => r.2.nesting) hDeclare
    simpa using hNesting.symm
  · rename_i existing storedAs q hDeclare
    have hNesting := congrArg (fun r => r.2.nesting) hDeclare
    rw [nesting_note _ (by simp)]
    simpa using hNesting.symm

@[simp] theorem nesting_declareVariables
    (p : Pass)
    (definition : VarDef)
    (span : Span) :
    (p.declareVariables definition span).nesting =
      p.nesting := by
  unfold declareVariables
  induction definition.names generalizing p with
  | nil => rfl
  | cons name names ih =>
      rw [List.foldl_cons, ih, nesting_declareVariable]

@[simp] theorem nesting_openBlock
    (p : Pass)
    (id : ScopeId)
    (key : String)
    (kind : SymbolKind)
    (span : Span) :
    (p.openBlock id key kind span).nesting =
      p.nesting.openScope id := by
  simp [openBlock]

end Pass

namespace PassM

/- A report leaves the nesting alone, also in failing. -/
theorem ensures_report_nesting
    {d : Diagnostic}
    {p : Pass} :
    (report d).Ensures p
      (fun _ q => q.nesting = p.nesting)
      (fun q => q.nesting = p.nesting) :=
  ensures_report_of (p.nesting_report d) (p.nesting_report d)

/- Checking any number of calls does so too. -/
theorem ensures_checkCalls_nesting
    (span : Span)
    (exprs : List Expr)
    (p : Pass) :
    (checkCalls span exprs).Ensures p
      (fun _ q => q.nesting = p.nesting)
      (fun q => q.nesting = p.nesting) := by
  refine ensures_checkCalls_of ?_ ?_ span exprs rfl
  · intro d q hq
    exact (q.nesting_report d).trans hq
  · intro key scope q hq
    exact (q.nesting_note (by simp)).trans hq

/- Raising any number of diagnostics does so too. -/
theorem ensures_reportAll_nesting
    (ds : List Diagnostic)
    (p : Pass) :
    (reportAll ds).Ensures p
      (fun _ q => q.nesting = p.nesting)
      (fun q => q.nesting = p.nesting) :=
  ensures_reportAll_of
    (fun d q hq => (q.nesting_report d).trans hq) ds rfl

/-
  An action enters a node of a kind: leaving that node
  afterwards restores the nesting.  An entry that fails has
  closed nothing.
-/
def Enters
    (action : PassM Unit)
    (kind : NodeKind) : Prop :=
  ∀ p : Pass,
    action.Ensures p
      (fun _ q =>
        p.nesting.Within q.nesting ∧
          q.nesting.leave kind = p.nesting)
      (fun q => p.nesting.Within q.nesting)

/- An action that opens nothing enters a plain node. -/
theorem enters_of_nesting
    {action : PassM Unit}
    {kind : NodeKind}
    (hKind : ∀ n : Nesting, n.leave kind = n)
    (hAction :
      ∀ p : Pass,
        action.Ensures p
          (fun _ q => q.nesting = p.nesting)
          (fun q => q.nesting = p.nesting)) :
    Enters action kind := by
  intro p
  refine (hAction p).mono ?_ ?_
  · intro _ q hq
    rw [hKind, hq]
    exact ⟨Nesting.Within.refl _, rfl⟩
  · intro q hq
    rw [hq]
    exact Nesting.Within.refl _

theorem enters_enterClass
    (decl : ClassDecl)
    (span : Span) :
    Enters (enterClass decl span) (.classDecl decl) := by
  intro p
  simp only [enterClass, ensures_bind, ensures_step]
  split
  · simp only [ensures_change, Pass.nesting_openScope,
      Pass.nesting_declareIn]
    exact ⟨Nesting.within_openScope _ _, rfl⟩
  · rw [ensures_bind]
    refine ensures_report_nesting.mono ?_ ?_
    · intro _ q hq
      rw [ensures_change, Pass.nesting_openScope, hq,
        Pass.nesting_declareIn]
      exact ⟨Nesting.within_openScope _ _, rfl⟩
    · intro q hq
      rw [hq, Pass.nesting_declareIn]
      exact Nesting.Within.refl _

theorem enters_declareField
    (decl : FieldDecl)
    (span : Span) :
    Enters (declareField decl span) (.fieldDecl decl) := by
  refine enters_of_nesting (fun _ => rfl) ?_
  intro p
  have hDeclared :
      ∀ {q : Pass},
        q.nesting =
            (p.declareHere (SymbolKey.fieldKey decl.name)
              (.ofField decl.name decl.type decl.access)
              span.start).2.nesting →
          q.nesting = p.nesting := by
    intro q hq
    rw [hq, Pass.nesting_declareHere]
  simp only [declareField, ensures_bind, ensures_step]
  split
  · exact hDeclared rfl
  · exact ensures_report_nesting.mono
      (fun _ q hq => hDeclared hq)
      (fun q hq => hDeclared hq)

theorem enters_enterMethod
    (decl : MethodDecl)
    (span : Span) :
    Enters (enterMethod decl span) (.methodDecl decl) := by
  intro p
  simp only [enterMethod, ensures_bind, ensures_step]
  split
  · simp only [ensures_bind, ensures_change]
    refine ensures_report_nesting.mono ?_ ?_
    · intro _ q hq
      rw [hq, Pass.nesting_rememberMethod,
        Pass.nesting_declareHere]
      exact ⟨Nesting.within_enterMethod _ _, rfl⟩
    · intro q hq
      rw [hq, Pass.nesting_rememberMethod,
        Pass.nesting_declareHere]
      exact Nesting.within_enterMethod _ _
  · simp only [ensures_bind, ensures_change, ensures_ask]
    -- Checks of the header come last and open nothing.
    have hOpened :
        p.nesting.Within
          ((p.nesting.openScope
            (.ofMethod decl.signature)).enterMethod true) :=
      (Nesting.within_openScope _ _).trans
        (Nesting.within_enterMethod _ _)
    refine (ensures_reportAll_nesting _ _).mono ?_ ?_
    · intro _ q hq
      rw [hq, Pass.nesting_rememberMethod,
        Pass.nesting_openScope, Pass.nesting_declareHere]
      exact ⟨hOpened, rfl⟩
    · intro q hq
      rw [hq, Pass.nesting_rememberMethod,
        Pass.nesting_openScope, Pass.nesting_declareHere]
      exact hOpened

theorem enters_defineVariables
    (definition : VarDef)
    (span : Span) :
    Enters (defineVariables definition span)
      (.varDef definition) := by
  refine enters_of_nesting (fun _ => rfl) ?_
  intro p
  simp only [defineVariables, ensures_bind, ensures_change]
  have hCalls :=
    ensures_checkCalls_nesting span definition.initializers
      (p.declareVariables definition span)
  rwa [Pass.nesting_declareVariables] at hCalls

theorem enters_checkAssignment
    (assignment : Assignment)
    (span : Span) :
    Enters (checkAssignment assignment span)
      (.assignment assignment) := by
  refine enters_of_nesting (fun _ => rfl) ?_
  intro p
  simp only [checkAssignment, ensures_bind, ensures_ask]
  split
  · exact (ensures_pure _ _ _ _).mpr rfl
  · exact p.nesting_note (by simp)
  · exact ensures_report_nesting

theorem enters_enterConditional
    (conditional : Conditional)
    (span : Span) :
    Enters (change fun p => p.enterConditional conditional span)
      (.closedConditional conditional) := by
  intro p
  simp only [ensures_change, Pass.enterConditional,
    Nesting.leave]
  split
  · simp only [Pass.nesting_openScope,
      Pass.nesting_openBlock]
    exact ⟨(Nesting.within_openScope _ _).trans
      (Nesting.within_openScope _ _), rfl⟩
  · rw [Pass.nesting_openBlock]
    exact ⟨Nesting.within_openScope _ _, rfl⟩

theorem enters_enterLoop
    (span : Span) :
    Enters (change fun p => p.enterLoop span)
      .closedLoop := by
  intro p
  simp only [ensures_change, Pass.enterLoop,
    Pass.nesting_openBlock]
  exact ⟨Nesting.within_openScope _ _, rfl⟩

/- A node of any kind is entered as it is left. -/
theorem enters_enterNode
    (node : Node) :
    Enters (enterNode node) node.kind := by
  have hNothing :
      ∀ p : Pass,
        (pure () : PassM Unit).Ensures p
          (fun _ q => q.nesting = p.nesting)
          (fun q => q.nesting = p.nesting) :=
    fun p => (ensures_pure _ _ _ _).mpr rfl
  unfold enterNode
  cases node.kind with
  | classDecl decl => exact enters_enterClass decl _
  | fieldDecl decl => exact enters_declareField decl _
  | methodDecl decl => exact enters_enterMethod decl _
  | varDef definition =>
      exact enters_defineVariables definition _
  | assignment assignment =>
      exact enters_checkAssignment assignment _
  | closedConditional conditional =>
      exact enters_enterConditional conditional _
  | closedLoop => exact enters_enterLoop _
  | openConditional =>
      exact enters_of_nesting (fun _ => rfl) hNothing
  | openLoop =>
      exact enters_of_nesting (fun _ => rfl) hNothing
  | block =>
      exact enters_of_nesting (fun _ => rfl) hNothing
  | expression expr =>
      exact enters_of_nesting (fun _ => rfl) hNothing
  | other =>
      exact enters_of_nesting (fun _ => rfl) hNothing

end PassM

end ScopeAnalysis

------------------------------------------------------------
-- Whole Walks
------------------------------------------------------------

namespace ScopeAnalysis

namespace PassM

mutual

/- A walk ends with the nesting that it started from. -/
theorem ensures_walk_nesting :
    ∀ (node : Node) (p : Pass),
      (walk listener node).Ensures p
        (fun _ q => q.nesting = p.nesting)
        (fun q => p.nesting.Within q.nesting)
| ⟨kind, span, children⟩, p => by
    simp only [walk, ensures_bind]
    refine (enters_enterNode
      ⟨kind, span, children⟩ p).mono ?_ (fun _ h => h)
    rintro _ q ⟨hWithin, hLeave⟩
    refine (ensures_walkAll_nesting children q).mono ?_ ?_
    · intro _ r hr
      simp only [listener, ensures_change]
      rw [Pass.nesting_exitNode, hr]
      exact hLeave
    · intro r hr
      exact hWithin.trans hr

/- So do walks one after the other. -/
theorem ensures_walkAll_nesting :
    ∀ (nodes : List Node) (p : Pass),
      (walkAll listener nodes).Ensures p
        (fun _ q => q.nesting = p.nesting)
        (fun q => p.nesting.Within q.nesting)
| [], p => by
    rw [walkAll, ensures_pure]
| node :: nodes, p => by
    simp only [walkAll, ensures_bind]
    refine (ensures_walk_nesting node p).mono ?_
      (fun _ h => h)
    intro _ q hq
    have hRest := ensures_walkAll_nesting nodes q
    rw [hq] at hRest
    exact hRest

end

/- So does a whole analysis, which writes a report last. -/
theorem ensures_analyze_nesting
    (program : Program)
    (p : Pass) :
    (analyze program).Ensures p
      (fun _ q => q.nesting = p.nesting)
      (fun q => p.nesting.Within q.nesting) := by
  have hReport :
      ∀ {q : Pass},
        q.nesting = p.nesting →
          exitProgram.Ensures q
            (fun _ r => r.nesting = p.nesting)
            (fun r => p.nesting.Within r.nesting) := by
    intro q hq
    have hWrite :
        (q.writeReport q.source).2.nesting = p.nesting := hq
    refine ensures_attempt_of (fun _ => hWrite) ?_
    rw [hWrite]
    exact Nesting.Within.refl _
  simp only [analyze, walkProgram, ensures_bind,
    ensures_change, listener]
  refine (ensures_walkAll_nesting program.items _).mono ?_ ?_
  · intro _ q hq
    refine hReport (hq.trans ?_)
    exact p.nesting_note (by simp)
  · intro q hq
    have hStart :
        (Pass.enterProgram
            (p.note
              (.analysisStarted program.source
                program.items.length))
            program).nesting =
          p.nesting :=
      p.nesting_note (by simp)
    rwa [hStart] at hq

/-
  Walks are balanced.  From any state, a walk that is done
  leaves the open scopes and the open methods as they were,
  element for element, and one that fails leaves them below
  what it opened; either way it never tries to close the
  global scope.  An analysis from the start that is done
  thus ends in the global scope and outside all methods.
-/
theorem walk_balanced :
    (∀ (node : Node) (p : Pass),
      (walk listener node).Ensures p
        (fun _ q =>
          q.registry.openScopes = p.registry.openScopes ∧
            q.openMethods = p.openMethods ∧
              q.nesting.ignoredExits =
                p.nesting.ignoredExits)
        (fun q =>
          p.registry.openScopes <:+
              q.registry.openScopes ∧
            p.openMethods.flags <:+ q.openMethods.flags ∧
              q.nesting.ignoredExits =
                p.nesting.ignoredExits)) ∧
    ∀ (options : Options) (sink : Sink) (program : Program),
      (analyze program).Ensures (.start options sink)
        (fun _ q =>
          q.registry.openScopes = [.global] ∧
            q.openMethods = .empty ∧
              q.nesting.ignoredExits = 0)
        (fun q => q.nesting.ignoredExits = 0) := by
  constructor
  · intro node p
    refine (ensures_walk_nesting node p).mono ?_ ?_
    · intro _ q hq
      have hScopes := congrArg Nesting.scopes hq
      have hMethods := congrArg Nesting.methods hq
      refine ⟨?_, congrArg OpenMethods.mk hMethods,
        congrArg Nesting.ignoredExits hq⟩
      exact congrArg (· ++ [ScopeId.global]) hScopes
    · intro q hq
      refine ⟨?_, hq.methods, hq.ignoredExits⟩
      obtain ⟨opened, hOpened⟩ := hq.scopes
      refine ⟨opened, ?_⟩
      rw [Registry.openScopes, ← List.append_assoc]
      exact congrArg (· ++ [ScopeId.global]) hOpened
  · intro options sink program
    refine (ensures_analyze_nesting program _).mono ?_ ?_
    · intro _ q hq
      have hScopes := congrArg Nesting.scopes hq
      have hMethods := congrArg Nesting.methods hq
      exact ⟨congrArg (· ++ [ScopeId.global]) hScopes,
        congrArg OpenMethods.mk hMethods,
        congrArg Nesting.ignoredExits hq⟩
    · intro q hq
      exact hq.ignoredExits

end PassM

end ScopeAnalysis
