import ScopeAnalysis.Pass.Walk
import ScopeAnalysis.Proofs.Ensures

/-
  What holds throughout a walk.

  Key definitions include:
    * `Pass.Lasting`
    * `PassM.HandsOn`
    * `Pass.settings`

  Key theorems include:
    * `PassM.handsOn_enterNode`
    * `PassM.handsOn_walkAll`
    * `PassM.settings_walkAll`

  A pass is moved by few basic steps.  A property that each
  of them hands on is handed on by every handler, and so by
  every walk, whether or not it fails.
-/

------------------------------------------------------------
-- Basic Steps
------------------------------------------------------------

namespace ScopeAnalysis

/- A property that every basic step of a pass hands on. -/
structure Pass.Lasting (keeps : Pass → Prop) : Prop where
  note :
    ∀ event p, keeps p → keeps (p.note event)
  openScope :
    ∀ id p, keeps p → keeps (p.openScope id)
  leaveScope :
    ∀ p, keeps p → keeps p.leaveScope
  declareIn :
    ∀ scope key symbol position p,
      keeps p →
        keeps (p.declareIn scope key symbol position).2
  rememberMethod :
    ∀ openedScope p,
      keeps p → keeps (p.rememberMethod openedScope)
  forgetMethod :
    ∀ p, keeps p → keeps p.forgetMethod.2
  report :
    ∀ d p, keeps p → keeps (p.report d).2

namespace Pass

variable {keeps : Pass → Prop}

theorem Lasting.declareHere
    (h : Lasting keeps)
    (key : String)
    (symbol : Symbol)
    (position : Position)
    {p : Pass}
    (hp : keeps p) :
    keeps (p.declareHere key symbol position).2 :=
  h.declareIn _ key symbol position p hp

theorem Lasting.exitMethod
    (h : Lasting keeps)
    {p : Pass}
    (hp : keeps p) :
    keeps p.exitMethod := by
  have hForget := h.forgetMethod p hp
  unfold Pass.exitMethod
  split
  · rename_i q hMethod
    rw [hMethod] at hForget
    exact h.leaveScope q hForget
  · rename_i q hMethod
    rw [hMethod] at hForget
    exact hForget

theorem Lasting.exitConditional
    (h : Lasting keeps)
    (conditional : Conditional)
    {p : Pass}
    (hp : keeps p) :
    keeps (p.exitConditional conditional) := by
  unfold Pass.exitConditional
  split
  · exact h.leaveScope _ (h.leaveScope p hp)
  · exact h.leaveScope p hp

/- Leaving a node hands on what basic steps do. -/
theorem Lasting.exitNode
    (h : Lasting keeps)
    (node : Node)
    {p : Pass}
    (hp : keeps p) :
    keeps (p.exitNode node) := by
  unfold Pass.exitNode
  cases node.kind with
  | classDecl decl => exact h.leaveScope p hp
  | methodDecl decl => exact h.exitMethod hp
  | closedConditional conditional =>
      exact h.exitConditional conditional hp
  | closedLoop => exact h.leaveScope p hp
  | fieldDecl decl => exact hp
  | varDef definition => exact hp
  | assignment assignment => exact hp
  | openConditional => exact hp
  | openLoop => exact hp
  | block => exact hp
  | expression expr => exact hp
  | other => exact hp

theorem Lasting.declareVariable
    (h : Lasting keeps)
    (arrayLength : Option Nat)
    (span : Span)
    (name : String)
    {p : Pass}
    (hp : keeps p) :
    keeps (p.declareVariable arrayLength span name) := by
  have hDeclare :=
    h.declareHere
      (SymbolKey.variableKey name)
      { Symbol.ofVariable name span.startLine with
        arrayLength := arrayLength }
      span.start hp
  unfold Pass.declareVariable
  split
  · rename_i q hOutcome
    rw [hOutcome] at hDeclare
    exact hDeclare
  · rename_i existing storedAs q hOutcome
    rw [hOutcome] at hDeclare
    exact h.note _ q hDeclare

theorem Lasting.declareVariables
    (h : Lasting keeps)
    (definition : VarDef)
    (span : Span)
    {p : Pass}
    (hp : keeps p) :
    keeps (p.declareVariables definition span) := by
  unfold Pass.declareVariables
  induction definition.names generalizing p with
  | nil => exact hp
  | cons name names ih =>
      exact ih (h.declareVariable _ span name hp)

theorem Lasting.openBlock
    (h : Lasting keeps)
    (id : ScopeId)
    (key : String)
    (kind : SymbolKind)
    (span : Span)
    {p : Pass}
    (hp : keeps p) :
    keeps (p.openBlock id key kind span) :=
  h.declareIn _ _ _ _ _ (h.openScope id p hp)

theorem Lasting.enterConditional
    (h : Lasting keeps)
    (conditional : Conditional)
    (span : Span)
    {p : Pass}
    (hp : keeps p) :
    keeps (p.enterConditional conditional span) := by
  unfold Pass.enterConditional
  split
  · exact h.openScope _ _ (h.openBlock _ _ _ span hp)
  · exact h.openBlock _ _ _ span hp

end Pass

end ScopeAnalysis

------------------------------------------------------------
-- Handlers
------------------------------------------------------------

namespace ScopeAnalysis

namespace PassM

variable {keeps : Pass → Prop}

/- An action hands a property on, also in failing. -/
def HandsOn
    (keeps : Pass → Prop)
    (action : PassM Unit) : Prop :=
  ∀ p : Pass,
    keeps p →
      action.Ensures p (fun _ q => keeps q) keeps

theorem handsOn_pure :
    HandsOn keeps (pure ()) :=
  fun _ hp => hp

theorem handsOn_change
    {f : Pass → Pass}
    (hf : ∀ p, keeps p → keeps (f p)) :
    HandsOn keeps (change f) :=
  hf

theorem HandsOn.bind
    {a b : PassM Unit}
    (ha : HandsOn keeps a)
    (hb : HandsOn keeps b) :
    HandsOn keeps (a >>= fun _ => b) := by
  intro p hp
  rw [ensures_bind]
  exact (ha p hp).mono (fun _ q hq => hb q hq)
    (fun _ hq => hq)

variable (h : Pass.Lasting keeps)

include h

theorem handsOn_report
    (d : Diagnostic) :
    HandsOn keeps (report d) := by
  intro p hp
  have hReport := h.report d p hp
  exact ensures_report_of hReport hReport

theorem handsOn_reportAll
    (ds : List Diagnostic) :
    HandsOn keeps (reportAll ds) :=
  fun _ hp => ensures_reportAll_of h.report ds hp

theorem handsOn_enterClass
    (decl : ClassDecl)
    (span : Span) :
    HandsOn keeps (enterClass decl span) := by
  have hOpen :
      HandsOn keeps
        (change fun p => p.openScope (.ofClass decl.name)) :=
    handsOn_change (h.openScope _)
  intro p hp
  have hDeclare :=
    h.declareIn .global
      (SymbolKey.classKey decl.name)
      (.ofClass decl.name decl.access decl.parent)
      span.start p hp
  simp only [enterClass, ensures_bind, ensures_step]
  split
  · exact hOpen _ hDeclare
  · exact (handsOn_report h _).bind hOpen _ hDeclare

theorem handsOn_declareField
    (decl : FieldDecl)
    (span : Span) :
    HandsOn keeps (declareField decl span) := by
  intro p hp
  have hDeclare :=
    h.declareHere
      (SymbolKey.fieldKey decl.name)
      (.ofField decl.name decl.type decl.access)
      span.start hp
  simp only [declareField, ensures_bind, ensures_step]
  split
  · exact hDeclare
  · exact handsOn_report h _ _ hDeclare

theorem handsOn_enterMethod
    (decl : MethodDecl)
    (span : Span) :
    HandsOn keeps (enterMethod decl span) := by
  intro p hp
  have hDeclare :=
    h.declareHere
      (SymbolKey.methodKey decl.signature)
      (.ofMethod decl.name decl.returnType decl.access
        decl.formals)
      span.start hp
  simp only [enterMethod, ensures_bind, ensures_step]
  split
  · simp only [ensures_bind, ensures_change]
    exact handsOn_report h _ _
      (h.rememberMethod _ _ hDeclare)
  · simp only [ensures_bind, ensures_change, ensures_ask]
    exact handsOn_reportAll h _ _
      (h.rememberMethod _ _ (h.openScope _ _ hDeclare))

theorem handsOn_defineVariables
    (definition : VarDef)
    (span : Span) :
    HandsOn keeps (defineVariables definition span) := by
  intro p hp
  simp only [defineVariables, ensures_bind, ensures_change]
  exact ensures_checkCalls_of h.report
    (fun _ _ q hq => h.note _ q hq) span _
    (h.declareVariables definition span hp)

theorem handsOn_checkAssignment
    (assignment : Assignment)
    (span : Span) :
    HandsOn keeps (checkAssignment assignment span) := by
  intro p hp
  simp only [checkAssignment, ensures_bind, ensures_ask]
  split
  · exact hp
  · exact h.note _ p hp
  · exact handsOn_report h _ p hp

/- Entering a node hands on what basic steps do. -/
theorem handsOn_enterNode
    (node : Node) :
    HandsOn keeps (enterNode node) := by
  unfold enterNode
  cases node.kind with
  | classDecl decl => exact handsOn_enterClass h decl _
  | fieldDecl decl => exact handsOn_declareField h decl _
  | methodDecl decl => exact handsOn_enterMethod h decl _
  | varDef definition =>
      exact handsOn_defineVariables h definition _
  | assignment assignment =>
      exact handsOn_checkAssignment h assignment _
  | closedConditional conditional =>
      exact handsOn_change fun p =>
        h.enterConditional conditional _
  | closedLoop =>
      exact handsOn_change fun p => h.openBlock _ _ _ _
  | openConditional => exact handsOn_pure
  | openLoop => exact handsOn_pure
  | block => exact handsOn_pure
  | expression expr => exact handsOn_pure
  | other => exact handsOn_pure

end PassM

end ScopeAnalysis

------------------------------------------------------------
-- Walks
------------------------------------------------------------

namespace ScopeAnalysis

namespace PassM

variable {keeps : Pass → Prop}

mutual

/- A walk hands on what entering and leaving hand on. -/
theorem handsOn_walk
    (hEnter : ∀ node, HandsOn keeps (enterNode node))
    (hExit :
      ∀ node p, keeps p → keeps (p.exitNode node)) :
    (node : Node) →
      HandsOn keeps (walk listener node)
| ⟨kind, span, children⟩ => by
    rw [walk]
    refine (hEnter _).bind ?_
    refine (handsOn_walkAll hEnter hExit children).bind ?_
    exact handsOn_change (hExit _)

theorem handsOn_walkAll
    (hEnter : ∀ node, HandsOn keeps (enterNode node))
    (hExit :
      ∀ node p, keeps p → keeps (p.exitNode node)) :
    (nodes : List Node) →
      HandsOn keeps (walkAll listener nodes)
| [] => by
    rw [walkAll]
    exact handsOn_pure
| node :: nodes => by
    rw [walkAll]
    exact (handsOn_walk hEnter hExit node).bind
      (handsOn_walkAll hEnter hExit nodes)

end

end PassM

end ScopeAnalysis

------------------------------------------------------------
-- Settings
------------------------------------------------------------

namespace ScopeAnalysis

/- What a pass is set to before it walks. -/
def Pass.settings (p : Pass) : String × Options :=
  (p.source, p.options)

/- No step but entering a program changes the settings. -/
theorem Pass.lasting_settings
    (good : String × Options → Prop) :
    Lasting fun p => good p.settings where
  note := fun _ _ hp => hp
  openScope := fun _ _ hp => hp
  leaveScope := by
    intro p hp
    unfold Pass.leaveScope closeScope
    cases p.registry.exit with
    | mk closed registry =>
        cases closed with
        | none => exact hp
        | some id => exact hp
  declareIn := fun _ _ _ _ _ hp => hp
  rememberMethod := fun _ _ hp => hp
  forgetMethod := fun _ hp => hp
  report := fun _ _ hp => hp

/- Walks keep the settings, also in failing. -/
theorem PassM.settings_walkAll
    (nodes : List Node)
    (p : Pass) :
    ((walkAll listener nodes).runOn p).2.settings =
      p.settings := by
  have hLasting := Pass.lasting_settings (· = p.settings)
  have hWalk :=
    handsOn_walkAll (handsOn_enterNode hLasting)
      (fun node _ => hLasting.exitNode node) nodes
  exact (hWalk p rfl).after

end ScopeAnalysis
