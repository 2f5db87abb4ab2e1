import ScopeAnalysis.Analysis
import ScopeAnalysis.Proofs.RegistryHistory

/-
  What the handlers of a pass are made of.

  Key definitions include:
    * `Pass.withReporter`
    * `Pass.Silent`
    * `PassM.Diagnosing`

  Key theorems include:
    * `Pass.silent_exitNode`
    * `PassM.diagnosing_enterNode`
    * `PassM.diagnosing_walk`

  Handlers are sequences of two kinds of steps.  Silent
  steps know nothing of the reporter and work on the
  registry with its own operations, and the others raise one
  diagnostic each.  What holds of both kinds and passes on
  from step to step therefore holds of every walk.
-/

------------------------------------------------------------
-- Silent Steps
------------------------------------------------------------

namespace ScopeAnalysis

namespace Pass

/- The same pass with another reporter. -/
def withReporter
    (p : Pass)
    (reporter : Reporter) : Pass :=
  { p with reporter := reporter }

/-
  A change of a pass that would be the same under any other
  reporter, and that changes the registry by a history.
-/
structure Silent (f : Pass → Pass) : Prop where
  blind :
    ∀ p reporter,
      f (p.withReporter reporter) =
        (f p).withReporter reporter
  history :
    ∀ p, ∃ ops, (f p).registry = p.registry.afterOps ops

/- A silent change keeps the reporter. -/
theorem Silent.reporter_eq
    {f : Pass → Pass}
    (hf : Silent f)
    (p : Pass) :
    (f p).reporter = p.reporter := by
  have hBlind : f p = (f p).withReporter p.reporter :=
    hf.blind p p.reporter
  calc
    (f p).reporter
        = ((f p).withReporter p.reporter).reporter :=
          congrArg Pass.reporter hBlind
    _ = p.reporter := rfl

/- A silent change lets the registry grow. -/
theorem Silent.within
    {f : Pass → Pass}
    (hf : Silent f)
    (p : Pass) :
    p.registry.Within (f p).registry := by
  rcases hf.history p with ⟨ops, hOps⟩
  rw [hOps]
  exact p.registry.within_afterOps ops

theorem Silent.congr
    {f g : Pass → Pass}
    (hf : Silent f)
    (h : ∀ p, g p = f p) :
    Silent g := by
  rw [funext h]
  exact hf

theorem silent_id : Silent fun p => p :=
  ⟨fun _ _ => rfl, fun _ => ⟨[], rfl⟩⟩

theorem Silent.comp
    {f g : Pass → Pass}
    (hg : Silent g)
    (hf : Silent f) :
    Silent fun p => g (f p) := by
  refine ⟨?_, ?_⟩
  · intro p reporter
    rw [hf.blind, hg.blind]
  · intro p
    rcases hf.history p with ⟨first, hFirst⟩
    rcases hg.history (f p) with ⟨second, hSecond⟩
    refine ⟨first ++ second, ?_⟩
    rw [Registry.afterOps_append, ← hFirst, hSecond]

/-
  What follows a silent step may depend on its answer, if
  the answer is blind as well.
-/
theorem Silent.andThen
    {ι : Type}
    {f : Pass → ι × Pass}
    {g : ι → Pass → Pass}
    (hf : Silent fun p => (f p).2)
    (hAnswer :
      ∀ p reporter,
        (f (p.withReporter reporter)).1 = (f p).1)
    (hg : ∀ i, Silent (g i)) :
    Silent fun p => g (f p).1 (f p).2 := by
  refine ⟨?_, ?_⟩
  · intro p reporter
    have hBlind := hf.blind p reporter
    rw [hAnswer, hBlind, (hg (f p).1).blind]
  · intro p
    rcases hf.history p with ⟨first, hFirst⟩
    rcases (hg (f p).1).history (f p).2 with
      ⟨second, hSecond⟩
    refine ⟨first ++ second, ?_⟩
    rw [Registry.afterOps_append, ← hFirst, hSecond]

theorem silent_note
    (event : LogEvent) :
    Silent fun p => p.note event :=
  ⟨fun _ _ => rfl, fun _ => ⟨[], rfl⟩⟩

theorem silent_openScope
    (id : ScopeId) :
    Silent fun p => p.openScope id :=
  ⟨fun _ _ => rfl, fun _ => ⟨[.enter id], rfl⟩⟩

theorem silent_declareIn
    (scope : ScopeId)
    (key : String)
    (symbol : Symbol)
    (position : Position) :
    Silent fun p =>
      (p.declareIn scope key symbol position).2 :=
  ⟨fun _ _ => rfl,
    fun _ => ⟨[.declare scope key symbol position], rfl⟩⟩

theorem silent_declareHere
    (key : String)
    (symbol : Symbol)
    (position : Position) :
    Silent fun p => (p.declareHere key symbol position).2 :=
  ⟨fun _ _ => rfl,
    fun _ => ⟨[.declareHere key symbol position], rfl⟩⟩

theorem silent_rememberMethod
    (openedScope : Bool) :
    Silent fun p => p.rememberMethod openedScope :=
  ⟨fun _ _ => rfl, fun _ => ⟨[], rfl⟩⟩

theorem silent_forgetMethod :
    Silent fun p => p.forgetMethod.2 :=
  ⟨fun _ _ => rfl, fun _ => ⟨[], rfl⟩⟩

theorem silent_enterProgram
    (program : Program) :
    Silent fun p => p.enterProgram program :=
  ⟨fun _ _ => rfl, fun _ => ⟨[], rfl⟩⟩

theorem silent_leaveScope : Silent leaveScope := by
  refine ⟨?_, ?_⟩
  · intro p reporter
    unfold leaveScope closeScope
    have hRegistry :
        (p.withReporter reporter).registry = p.registry :=
      rfl
    rw [hRegistry]
    cases p.registry.exit with
    | mk closed registry =>
        cases closed with
        | none => rfl
        | some id => rfl
  · intro p
    refine ⟨[.exit], ?_⟩
    rw [Registry.afterOps_cons, Registry.afterOps_nil]
    unfold leaveScope closeScope Registry.afterOp
    cases p.registry.exit with
    | mk closed registry =>
        cases closed with
        | none => rfl
        | some id => rfl

end Pass

end ScopeAnalysis

------------------------------------------------------------
-- Silent Handlers
------------------------------------------------------------

namespace ScopeAnalysis

namespace Pass

theorem silent_exitMethod : Silent exitMethod := by
  have hClose :
      ∀ closes : Bool,
        Silent fun q =>
          match closes with
          | true => q.leaveScope
          | false => q := by
    intro closes
    cases closes with
    | true => exact silent_leaveScope
    | false => exact silent_id
  refine
    (silent_forgetMethod.andThen
      (fun _ _ => rfl) hClose).congr ?_
  intro p
  unfold exitMethod
  split
  · rename_i q hForget
    rw [hForget]
  · rename_i q hForget
    rw [hForget]

theorem silent_exitConditional
    (conditional : Conditional) :
    Silent fun p => p.exitConditional conditional := by
  unfold exitConditional
  split
  · exact silent_leaveScope.comp silent_leaveScope
  · exact silent_leaveScope

/- Leaving a node is silent. -/
theorem silent_exitNode
    (node : Node) :
    Silent fun p => p.exitNode node := by
  unfold exitNode
  cases node.kind with
  | classDecl decl => exact silent_leaveScope
  | methodDecl decl => exact silent_exitMethod
  | closedConditional conditional =>
      exact silent_exitConditional conditional
  | closedLoop => exact silent_leaveScope
  | fieldDecl decl => exact silent_id
  | varDef definition => exact silent_id
  | assignment assignment => exact silent_id
  | openConditional => exact silent_id
  | openLoop => exact silent_id
  | block => exact silent_id
  | expression expr => exact silent_id
  | other => exact silent_id

theorem silent_openBlock
    (id : ScopeId)
    (key : String)
    (kind : SymbolKind)
    (span : Span) :
    Silent fun p => p.openBlock id key kind span :=
  (silent_declareIn id key
    (.ofBlock kind id.text span.startLine)
    span.start).comp (silent_openScope id)

theorem silent_enterConditional
    (conditional : Conditional)
    (span : Span) :
    Silent fun p => p.enterConditional conditional span := by
  unfold enterConditional
  split
  · exact (silent_openScope _).comp
      (silent_openBlock _ _ _ span)
  · exact silent_openBlock _ _ _ span

theorem silent_declareVariable
    (arrayLength : Option Nat)
    (span : Span)
    (name : String) :
    Silent fun p =>
      p.declareVariable arrayLength span name := by
  unfold declareVariable
  generalize SymbolKey.variableKey name = key
  generalize
    { Symbol.ofVariable name span.startLine with
      arrayLength := arrayLength } = symbol
  have hDeclare := silent_declareHere key symbol span.start
  refine ⟨?_, ?_⟩
  · intro p reporter
    have hBlind :
        (p.withReporter reporter).declareHere
            key symbol span.start =
          ((p.declareHere key symbol span.start).1,
            (p.declareHere key symbol
              span.start).2.withReporter reporter) :=
      rfl
    rw [hBlind]
    cases p.declareHere key symbol span.start with
    | mk outcome q =>
        cases outcome with
        | declared => rfl
        | conflict existing storedAs => rfl
  · intro p
    have hHistory := hDeclare.history p
    cases hCall : p.declareHere key symbol span.start with
    | mk outcome q =>
        rw [hCall] at hHistory
        cases outcome with
        | declared => exact hHistory
        | conflict existing storedAs => exact hHistory

theorem silent_declareVariables
    (definition : VarDef)
    (span : Span) :
    Silent fun p =>
      p.declareVariables definition span := by
  unfold declareVariables
  induction definition.names with
  | nil => exact silent_id
  | cons name names ih =>
      exact ih.comp
        (silent_declareVariable definition.arrayLength span
          name)

theorem silent_enterLoop
    (span : Span) :
    Silent fun p => p.enterLoop span :=
  silent_openBlock _ _ _ span

end Pass

end ScopeAnalysis

------------------------------------------------------------
-- Diagnosing Actions
------------------------------------------------------------

namespace ScopeAnalysis

namespace PassM

variable {α β : Type}

/-
  Actions that are made of silent steps, of questions that
  are blind to the reporter, and of reports.
-/
inductive Diagnosing : {α : Type} → PassM α → Prop where
| pure
    {α : Type}
    (a : α) :
    Diagnosing (Pure.pure a : PassM α)
| step
    {α : Type}
    {f : Pass → α × Pass}
    (hAnswer :
      ∀ p reporter,
        (f (p.withReporter reporter)).1 = (f p).1)
    (hSilent : Pass.Silent fun p => (f p).2) :
    Diagnosing (PassM.step f)
| report
    (d : Diagnostic) :
    Diagnosing (PassM.report d)
| bind
    {α β : Type}
    {a : PassM α}
    {f : α → PassM β}
    (ha : Diagnosing a)
    (hf : ∀ x, Diagnosing (f x)) :
    Diagnosing (a >>= f)

theorem diagnosing_change
    {f : Pass → Pass}
    (hf : Pass.Silent f) :
    Diagnosing (change f) :=
  .step (fun _ _ => rfl) hf

theorem diagnosing_ask
    {f : Pass → α}
    (hf :
      ∀ p reporter, f (p.withReporter reporter) = f p) :
    Diagnosing (ask f) :=
  .step hf Pass.silent_id

theorem diagnosing_reportAll
    (ds : List Diagnostic) :
    Diagnosing (reportAll ds) := by
  induction ds with
  | nil => exact .pure ()
  | cons d ds ih => exact .bind (.report d) fun _ => ih

end PassM

end ScopeAnalysis

------------------------------------------------------------
-- Diagnosing Handlers
------------------------------------------------------------

namespace ScopeAnalysis

namespace PassM

theorem diagnosing_enterClass
    (decl : ClassDecl)
    (span : Span) :
    Diagnosing (enterClass decl span) := by
  have hOpen :
      Diagnosing
        (change fun p => p.openScope (.ofClass decl.name)) :=
    diagnosing_change (Pass.silent_openScope _)
  apply Diagnosing.bind
    (.step (fun _ _ => rfl) (Pass.silent_declareIn ..))
  intro outcome
  cases outcome with
  | declared => exact hOpen
  | conflict existing storedAs =>
      exact .bind (.report _) fun _ => hOpen

theorem diagnosing_declareField
    (decl : FieldDecl)
    (span : Span) :
    Diagnosing (declareField decl span) := by
  apply Diagnosing.bind
    (.step (fun _ _ => rfl) (Pass.silent_declareHere ..))
  intro outcome
  cases outcome with
  | declared => exact .pure ()
  | conflict existing storedAs => exact .report _

theorem diagnosing_enterMethod
    (decl : MethodDecl)
    (span : Span) :
    Diagnosing (enterMethod decl span) := by
  apply Diagnosing.bind
    (.step (fun _ _ => rfl) (Pass.silent_declareHere ..))
  intro outcome
  cases outcome with
  | declared =>
      apply Diagnosing.bind
        (diagnosing_change (Pass.silent_openScope _))
      intro _
      apply Diagnosing.bind
        (diagnosing_change (Pass.silent_rememberMethod _))
      intro _
      apply Diagnosing.bind (diagnosing_ask fun _ _ => rfl)
      intro options
      exact diagnosing_reportAll _
  | conflict existing storedAs =>
      apply Diagnosing.bind
        (diagnosing_change (Pass.silent_rememberMethod _))
      intro _
      exact .report _

theorem diagnosing_checkCall
    (expr : Expr)
    (span : Span) :
    Diagnosing (checkCall expr span) := by
  apply Diagnosing.bind (diagnosing_ask fun _ _ => rfl)
  intro verdict
  cases verdict with
  | notCall => exact .pure false
  | conforms => exact .pure false
  | unknownTarget key =>
      have hNote :
          Pass.Silent fun p =>
            p.note
              (.targetNotFound key p.registry.current) :=
        ⟨fun _ _ => rfl, fun _ => ⟨[], rfl⟩⟩
      exact .bind (diagnosing_change hNote)
        fun _ => .pure false
  | mismatch d =>
      exact .bind (.report d) fun _ => .pure true

theorem diagnosing_checkCalls
    (span : Span)
    (exprs : List Expr) :
    Diagnosing (checkCalls span exprs) := by
  induction exprs with
  | nil => exact .pure ()
  | cons expr exprs ih =>
      apply Diagnosing.bind (diagnosing_checkCall expr span)
      intro wrong
      cases wrong with
      | true => exact .pure ()
      | false => exact ih

theorem diagnosing_defineVariables
    (definition : VarDef)
    (span : Span) :
    Diagnosing (defineVariables definition span) :=
  .bind
    (diagnosing_change
      (Pass.silent_declareVariables definition span))
    fun _ => diagnosing_checkCalls span _

theorem diagnosing_checkAssignment
    (assignment : Assignment)
    (span : Span) :
    Diagnosing (checkAssignment assignment span) := by
  apply Diagnosing.bind (diagnosing_ask fun _ _ => rfl)
  intro verdict
  cases verdict with
  | accepted => exact .pure ()
  | unknownLength =>
      exact diagnosing_change (Pass.silent_note _)
  | violation d => exact .report d

/- Entering a node is diagnosing. -/
theorem diagnosing_enterNode
    (node : Node) :
    Diagnosing (enterNode node) := by
  unfold enterNode
  cases node.kind with
  | classDecl decl => exact diagnosing_enterClass decl _
  | fieldDecl decl => exact diagnosing_declareField decl _
  | methodDecl decl => exact diagnosing_enterMethod decl _
  | varDef definition =>
      exact diagnosing_defineVariables definition _
  | assignment assignment =>
      exact diagnosing_checkAssignment assignment _
  | closedConditional conditional =>
      exact diagnosing_change
        (Pass.silent_enterConditional conditional _)
  | closedLoop =>
      exact diagnosing_change (Pass.silent_enterLoop _)
  | openConditional => exact .pure ()
  | openLoop => exact .pure ()
  | block => exact .pure ()
  | expression expr => exact .pure ()
  | other => exact .pure ()

end PassM

end ScopeAnalysis

------------------------------------------------------------
-- Diagnosing Walks
------------------------------------------------------------

namespace ScopeAnalysis

namespace PassM

mutual

/- A walk is diagnosing. -/
theorem diagnosing_walk :
    (node : Node) →
      Diagnosing (walk listener node)
| ⟨kind, span, children⟩ => by
    rw [walk]
    apply Diagnosing.bind (diagnosing_enterNode _)
    intro _
    apply Diagnosing.bind (diagnosing_walkAll children)
    intro _
    exact diagnosing_change (Pass.silent_exitNode _)

theorem diagnosing_walkAll :
    (nodes : List Node) →
      Diagnosing (walkAll listener nodes)
| [] => by
    rw [walkAll]
    exact .pure ()
| node :: nodes => by
    rw [walkAll]
    apply Diagnosing.bind (diagnosing_walk node)
    intro _
    exact diagnosing_walkAll nodes

end

end PassM

end ScopeAnalysis
