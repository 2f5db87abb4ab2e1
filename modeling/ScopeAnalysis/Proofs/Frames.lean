import ScopeAnalysis.Proofs.Ensures
import ScopeAnalysis.Proofs.RegistryHistory

/-
  What handlers do to scopes and declarations.

  Key definitions include:
    * `Node.declarations`
    * `Node.openings`
    * `Registry.has`
    * `Frame`
    * `Frame.enter`
    * `Frame.leave`
    * `PassM.LeadsTo`

  Key theorems include:
    * `Frame.keeps_leave`
    * `PassM.leadsTo_enterNode`
    * `Pass.frame_exitNode`

  A node declares what can be read off the node alone, and
  it does so before anything is reported.  What it opens
  behind that depends on what was declared before.  The
  options, the sink and the diagnostics have no part in it,
  as long as nothing fails.
-/

------------------------------------------------------------
-- Declarations Of A Node
------------------------------------------------------------

namespace ScopeAnalysis

/- The declaration of a variable with its first line. -/
def VarDef.declare
    (definition : VarDef)
    (span : Span)
    (name : String) : RegistryOp :=
  .declareHere
    (SymbolKey.variableKey name)
    { Symbol.ofVariable name span.startLine with
      arrayLength := definition.arrayLength }
    span.start

namespace Node

/- The block that a closed conditional or loop declares. -/
def blockDeclarations
    (id : ScopeId)
    (key : String)
    (kind : SymbolKind)
    (span : Span) : List RegistryOp :=
  [ .enter id,
    .declare id key
      (.ofBlock kind id.text span.startLine) span.start ]

/- What entering a node does to a registry at first. -/
def declarations (node : Node) : List RegistryOp :=
  match node.kind with
  | .classDecl decl =>
      [ .declare .global
          (SymbolKey.classKey decl.name)
          (.ofClass decl.name decl.access decl.parent)
          node.span.start ]
  | .fieldDecl decl =>
      [ .declareHere
          (SymbolKey.fieldKey decl.name)
          (.ofField decl.name decl.type decl.access)
          node.span.start ]
  | .methodDecl decl =>
      [ .declareHere
          (SymbolKey.methodKey decl.signature)
          (.ofMethod decl.name decl.returnType decl.access
            decl.formals)
          node.span.start ]
  | .varDef definition =>
      definition.names.map (definition.declare node.span)
  | .closedConditional _ =>
      blockDeclarations
        (.ofIf node.span.startLine node.span.endLine)
        SymbolKey.ifMarker .ifMarker node.span
  | .closedLoop =>
      blockDeclarations
        (.ofWhile node.span.startLine node.span.endLine)
        SymbolKey.loopMarker .loopMarker node.span
  | .assignment _ => []
  | .openConditional => []
  | .openLoop => []
  | .block => []
  | .expression _ => []
  | .other => []

end Node

end ScopeAnalysis

------------------------------------------------------------
-- Free Keys
------------------------------------------------------------

namespace ScopeAnalysis

namespace Registry

/- A scope has a symbol under a key. -/
def has
    (r : Registry)
    (scope : ScopeId)
    (key : String) : Bool :=
  (r.lookup scope key).isSome

theorem has_iff
    (r : Registry)
    (scope : ScopeId)
    (key : String) :
    r.has scope key ↔
      ∃ found, r.lookup scope key = some found :=
  Option.isSome_iff_exists

/- A declaration comes out well when its key is free. -/
theorem declared_iff
    (r : Registry)
    (scope : ScopeId)
    (key : String)
    (symbol : Symbol)
    (position : Position) :
    (r.declare scope key symbol position).1 = .declared ↔
      ¬ r.has scope key := by
  rw [declare_answer, ScopeTable.outcome, has, lookup]
  cases (r.tableOf scope).get? key with
  | none => simp
  | some existing => simp

/- What is declared under a free key is found there. -/
theorem lookup_declare_of_free
    {r : Registry}
    {scope : ScopeId}
    {key : String}
    (h : r.lookup scope key = none)
    (symbol : Symbol)
    (position : Position) :
    (r.declare scope key symbol position).2.lookup scope
        key =
      some symbol := by
  have hFree : ¬ r.has scope key := by simp [has, h]
  have hPlace :=
    r.lookup_declare_place scope key symbol position
  rwa [(r.declared_iff scope key symbol position).mpr hFree]
    at hPlace

theorem has_of_conflict
    {r : Registry}
    {scope : ScopeId}
    {key : String}
    (symbol : Symbol)
    (position : Position)
    {existing : Symbol}
    {storedAs : String}
    (h :
      (r.declare scope key symbol position).1 =
        .conflict existing storedAs) :
    r.has scope key := by
  rw [has, r.lookup_of_conflict _ _ _ _ h]
  rfl

end Registry

/- The key of a method is taken in the innermost scope. -/
def MethodDecl.isTaken
    (r : Registry)
    (decl : MethodDecl) : Bool :=
  r.has r.current (SymbolKey.methodKey decl.signature)

end ScopeAnalysis

------------------------------------------------------------
-- Frames
------------------------------------------------------------

namespace ScopeAnalysis

/- What a pass has declared and opened so far. -/
structure Frame where
  registry : Registry
  openMethods : OpenMethods

/- The frame of a pass. -/
def Pass.frame (p : Pass) : Frame where
  registry := p.registry
  openMethods := p.openMethods

namespace Frame

/- The frame that a pass starts with. -/
def initial : Frame where
  registry := .initial
  openMethods := .empty

/- The frame after a history of its registry. -/
def after
    (f : Frame)
    (ops : List RegistryOp) : Frame :=
  { f with registry := f.registry.afterOps ops }

theorem after_append
    (f : Frame)
    (first second : List RegistryOp) :
    f.after (first ++ second) =
      (f.after first).after second := by
  rw [after, Registry.afterOps_append]
  rfl

end Frame

/-
  The scopes that a node opens behind its declarations.  A
  method that was declared before opens none.
-/
def Node.openings
    (r : Registry)
    (node : Node) : List RegistryOp :=
  match node.kind with
  | .classDecl decl => [.enter (.ofClass decl.name)]
  | .methodDecl decl =>
      if decl.isTaken r then
        []
      else
        [.enter (.ofMethod decl.signature)]
  | .closedConditional conditional =>
      if conditional.hasElse then
        [ .enter
            (.ofElse node.span.startLine
              node.span.endLine) ]
      else
        []
  | .fieldDecl _ => []
  | .varDef _ => []
  | .assignment _ => []
  | .closedLoop => []
  | .openConditional => []
  | .openLoop => []
  | .block => []
  | .expression _ => []
  | .other => []

namespace Frame

/- The methods that are open once a node is entered. -/
def methodsWithin
    (f : Frame)
    (node : Node) : OpenMethods :=
  match node.kind with
  | .methodDecl decl =>
      f.openMethods.enter (!decl.isTaken f.registry)
  | _ => f.openMethods

/- The frame once a node is entered. -/
def enter
    (f : Frame)
    (node : Node) : Frame where
  registry :=
    f.registry.afterOps
      (node.declarations ++ node.openings f.registry)
  openMethods := f.methodsWithin node

/- A method that was declared before is entered so. -/
theorem enter_of_taken
    (f : Frame)
    {decl : MethodDecl}
    (span : Span)
    (children : List Node)
    (h : decl.isTaken f.registry) :
    f.enter ⟨.methodDecl decl, span, children⟩ =
      { registry :=
          f.registry.afterOps
            (Node.declarations
              ⟨.methodDecl decl, span, children⟩)
        openMethods := f.openMethods.enter false } := by
  simp [enter, methodsWithin, Node.openings, h]

/- Any other method is entered with a scope of its own. -/
theorem enter_of_free
    (f : Frame)
    {decl : MethodDecl}
    (span : Span)
    (children : List Node)
    (h : ¬ decl.isTaken f.registry) :
    f.enter ⟨.methodDecl decl, span, children⟩ =
      { registry :=
          f.registry.afterOps
            (Node.declarations
                ⟨.methodDecl decl, span, children⟩ ++
              [.enter (.ofMethod decl.signature)])
        openMethods := f.openMethods.enter true } := by
  simp [enter, methodsWithin, Node.openings, h]

/- The frame once the innermost method is left. -/
def leaveMethod (f : Frame) : Frame :=
  if f.openMethods.exit.1 then
    after { f with openMethods := f.openMethods.exit.2 }
      [.exit]
  else
    { f with openMethods := f.openMethods.exit.2 }

/- The frame once a node is left. -/
def leave
    (f : Frame)
    (node : Node) : Frame :=
  match node.kind with
  | .classDecl _ => f.after [.exit]
  | .methodDecl _ => f.leaveMethod
  | .closedConditional conditional =>
      if conditional.hasElse then
        f.after [.exit, .exit]
      else
        f.after [.exit]
  | .closedLoop => f.after [.exit]
  | .fieldDecl _ => f
  | .varDef _ => f
  | .assignment _ => f
  | .openConditional => f
  | .openLoop => f
  | .block => f
  | .expression _ => f
  | .other => f

/- Leaving a node does no more than close scopes. -/
theorem keeps_leave
    {keeps : Registry → Prop}
    (hExit : ∀ r : Registry, keeps r → keeps r.exit.2)
    {f : Frame}
    (h : keeps f.registry)
    (node : Node) :
    keeps (f.leave node).registry := by
  have hOnce := hExit f.registry h
  unfold leave
  cases node.kind with
  | classDecl decl => exact hOnce
  | methodDecl decl =>
      simp only [leaveMethod]
      split
      · exact hOnce
      · exact h
  | closedConditional conditional =>
      simp only
      split
      · exact hExit _ hOnce
      · exact hOnce
  | closedLoop => exact hOnce
  | fieldDecl decl => exact h
  | varDef definition => exact h
  | assignment assignment => exact h
  | openConditional => exact h
  | openLoop => exact h
  | block => exact h
  | expression expr => exact h
  | other => exact h

end Frame

end ScopeAnalysis

------------------------------------------------------------
-- Steps
------------------------------------------------------------

namespace ScopeAnalysis

namespace Pass

@[simp] theorem frame_note
    (p : Pass)
    (event : LogEvent) :
    (p.note event).frame = p.frame :=
  rfl

@[simp] theorem frame_openScope
    (p : Pass)
    (id : ScopeId) :
    (p.openScope id).frame = p.frame.after [.enter id] :=
  rfl

/- A report changes no frame, whether or not it fails. -/
@[simp] theorem frame_report
    (p : Pass)
    (d : Diagnostic) :
    (p.report d).2.frame = p.frame := by
  simp [frame, report, note]

@[simp] theorem registry_report
    (p : Pass)
    (d : Diagnostic) :
    (p.report d).2.registry = p.registry :=
  congrArg Frame.registry (p.frame_report d)

@[simp] theorem frame_leaveScope
    (p : Pass) :
    p.leaveScope.frame = p.frame.after [.exit] := by
  unfold leaveScope closeScope Frame.after frame
  rw [Registry.afterOps_cons, Registry.afterOp,
    Registry.afterOps_nil]
  cases p.registry.exit with
  | mk closed registry =>
      cases closed with
      | none => rfl
      | some id => rfl

theorem frame_declareVariable
    (p : Pass)
    (definition : VarDef)
    (span : Span)
    (name : String) :
    (p.declareVariable definition.arrayLength span
        name).frame =
      p.frame.after [definition.declare span name] := by
  unfold declareVariable
  split
  · rename_i q hDeclare
    exact congrArg (fun r => r.2.frame) hDeclare.symm
  · rename_i existing storedAs q hDeclare
    exact congrArg (fun r => r.2.frame) hDeclare.symm

theorem frame_declareVariables
    (p : Pass)
    (definition : VarDef)
    (span : Span) :
    (p.declareVariables definition span).frame =
      p.frame.after
        (definition.names.map (definition.declare span)) := by
  unfold declareVariables
  induction definition.names generalizing p with
  | nil => rfl
  | cons name names ih =>
      rw [List.foldl_cons, ih, frame_declareVariable,
        ← Frame.after_append, List.map_cons,
        List.singleton_append]

theorem frame_exitMethod
    (p : Pass) :
    p.exitMethod.frame = p.frame.leaveMethod := by
  have hForget :
      p.forgetMethod.2.frame =
        { p.frame with
          openMethods := p.frame.openMethods.exit.2 } :=
    rfl
  have hFlag :
      p.forgetMethod.1 = p.frame.openMethods.exit.1 :=
    rfl
  unfold exitMethod Frame.leaveMethod
  split
  · rename_i q hMethod
    rw [hMethod] at hForget hFlag
    rw [if_pos hFlag.symm, frame_leaveScope, hForget]
  · rename_i q hMethod
    rw [hMethod] at hForget hFlag
    rw [if_neg (by simp [← hFlag]), hForget]

/- Leaving a node changes the frame as the node says. -/
theorem frame_exitNode
    (p : Pass)
    (node : Node) :
    (p.exitNode node).frame = p.frame.leave node := by
  unfold exitNode Frame.leave
  cases node.kind with
  | classDecl decl => exact p.frame_leaveScope
  | methodDecl decl => exact p.frame_exitMethod
  | closedConditional conditional =>
      simp only [exitConditional]
      split
      · rw [frame_leaveScope, frame_leaveScope,
          ← Frame.after_append, List.singleton_append]
      · exact p.frame_leaveScope
  | closedLoop => exact p.frame_leaveScope
  | fieldDecl decl => rfl
  | varDef definition => rfl
  | assignment assignment => rfl
  | openConditional => rfl
  | openLoop => rfl
  | block => rfl
  | expression expr => rfl
  | other => rfl

end Pass

end ScopeAnalysis

------------------------------------------------------------
-- Reports And Checks
------------------------------------------------------------

namespace ScopeAnalysis

namespace PassM

variable {f : Frame}
variable {p : Pass}

theorem ensures_report_frame
    (d : Diagnostic)
    (h : p.frame = f) :
    (report d).Ensures p
      (fun _ q => q.frame = f)
      (fun q => q.frame = f) := by
  have hReport := p.frame_report d
  rw [h] at hReport
  exact ensures_report_of hReport hReport

theorem ensures_reportAll_frame
    (ds : List Diagnostic)
    (h : p.frame = f) :
    (reportAll ds).Ensures p
      (fun _ q => q.frame = f)
      (fun q => q.frame = f) := by
  refine ensures_reportAll_of ?_ ds h
  intro d q hq
  rw [q.frame_report, hq]

theorem ensures_checkCalls_frame
    (span : Span)
    (exprs : List Expr)
    (h : p.frame = f) :
    (checkCalls span exprs).Ensures p
      (fun _ q => q.frame = f)
      (fun q => q.frame = f) := by
  refine ensures_checkCalls_of ?_ (fun _ _ _ hq => hq) span
    exprs h
  intro d q hq
  rw [q.frame_report, hq]

end PassM

end ScopeAnalysis

------------------------------------------------------------
-- Entering A Node
------------------------------------------------------------

namespace ScopeAnalysis

namespace PassM

/-
  An action that is done has led to this frame.  One that
  has failed has declared all that it declares, and opened
  all that it opens or nothing yet.
-/
def LeadsTo
    (action : PassM Unit)
    (p : Pass)
    (declarations : List RegistryOp)
    (f : Frame) : Prop :=
  action.Ensures p
    (fun _ q => q.frame = f)
    (fun q =>
      q.registry = p.registry.afterOps declarations ∨
        q.registry = f.registry)

theorem leadsTo_enterClass
    (decl : ClassDecl)
    (span : Span)
    (children : List Node)
    (p : Pass) :
    (enterClass decl span).LeadsTo p
      (Node.declarations ⟨.classDecl decl, span, children⟩)
      (p.frame.enter ⟨.classDecl decl, span, children⟩) := by
  simp only [LeadsTo, enterClass, ensures_bind,
    ensures_step]
  split
  · rw [ensures_change]
    rfl
  · rw [ensures_bind]
    refine (ensures_report_frame _ rfl).mono ?_ ?_
    · intro _ q hq
      rw [ensures_change, Pass.frame_openScope, hq]
      rfl
    · intro q hq
      exact .inl (congrArg Frame.registry hq)

theorem leadsTo_declareField
    (decl : FieldDecl)
    (span : Span)
    (children : List Node)
    (p : Pass) :
    (declareField decl span).LeadsTo p
      (Node.declarations ⟨.fieldDecl decl, span, children⟩)
      (p.frame.enter ⟨.fieldDecl decl, span, children⟩) := by
  simp only [LeadsTo, declareField, ensures_bind,
    ensures_step]
  split
  · rw [ensures_pure]
    rfl
  · refine (ensures_report_frame _ rfl).mono ?_ ?_
    · intro _ q hq
      exact hq
    · intro q hq
      exact .inl (congrArg Frame.registry hq)

theorem leadsTo_enterMethod
    (decl : MethodDecl)
    (span : Span)
    (children : List Node)
    (p : Pass) :
    (enterMethod decl span).LeadsTo p
      (Node.declarations ⟨.methodDecl decl, span, children⟩)
      (p.frame.enter
        ⟨.methodDecl decl, span, children⟩) := by
  simp only [LeadsTo, enterMethod, ensures_bind,
    ensures_step]
  split
  · rename_i existing storedAs hConflict
    have hTaken : decl.isTaken p.frame.registry :=
      Registry.has_of_conflict
        (.ofMethod decl.name decl.returnType decl.access
          decl.formals)
        span.start hConflict
    rw [p.frame.enter_of_taken span children hTaken]
    simp only [ensures_bind, ensures_change]
    refine (ensures_report_frame _ rfl).mono ?_ ?_
    · intro _ q hq
      exact hq
    · intro q hq
      exact .inl (congrArg Frame.registry hq)
  · rename_i hDeclared
    have hFree : ¬ decl.isTaken p.frame.registry :=
      (p.registry.declared_iff _ _
        (.ofMethod decl.name decl.returnType decl.access
          decl.formals)
        span.start).mp hDeclared
    rw [p.frame.enter_of_free span children hFree]
    simp only [ensures_bind, ensures_change, ensures_ask]
    -- The header is checked once the scope is open.
    refine (ensures_reportAll_frame _ rfl).mono ?_ ?_
    · intro _ q hq
      exact hq
    · intro q hq
      exact .inr (congrArg Frame.registry hq)

theorem leadsTo_defineVariables
    (definition : VarDef)
    (span : Span)
    (children : List Node)
    (p : Pass) :
    (defineVariables definition span).LeadsTo p
      (Node.declarations ⟨.varDef definition, span, children⟩)
      (p.frame.enter
        ⟨.varDef definition, span, children⟩) := by
  have hFrame :
      (p.declareVariables definition span).frame =
        p.frame.enter
          ⟨.varDef definition, span, children⟩ := by
    rw [p.frame_declareVariables, Frame.enter, Node.openings,
      List.append_nil]
    rfl
  rw [defineVariables, LeadsTo, ensures_bind,
    ensures_change]
  refine (ensures_checkCalls_frame span _ hFrame).mono
    ?_ ?_
  · intro _ q hq
    exact hq
  · intro q hq
    exact .inr (congrArg Frame.registry hq)

theorem leadsTo_checkAssignment
    (assignment : Assignment)
    (span : Span)
    (p : Pass) :
    (checkAssignment assignment span).LeadsTo p []
      p.frame := by
  rw [checkAssignment, LeadsTo, ensures_bind, ensures_ask]
  split
  · rw [ensures_pure]
  · rw [ensures_change, Pass.frame_note]
  · refine (ensures_report_frame _ rfl).mono ?_ ?_
    · intro _ q hq
      exact hq
    · intro q hq
      exact .inl (congrArg Frame.registry hq)

theorem leadsTo_enterConditional
    (conditional : Conditional)
    (span : Span)
    (children : List Node)
    (p : Pass) :
    LeadsTo
      (change fun p => p.enterConditional conditional span) p
      (Node.declarations
        ⟨.closedConditional conditional, span, children⟩)
      (p.frame.enter
        ⟨.closedConditional conditional, span,
          children⟩) := by
  rw [LeadsTo, ensures_change]
  unfold Pass.enterConditional Frame.enter
  simp only [Node.openings]
  split
  · rfl
  · rfl

/- Entering a node changes the frame as the node says. -/
theorem leadsTo_enterNode
    (node : Node)
    (p : Pass) :
    (enterNode node).LeadsTo p node.declarations
      (p.frame.enter node) := by
  have hNothing : LeadsTo (pure ()) p [] p.frame := rfl
  rcases node with ⟨kind, span, children⟩
  unfold enterNode
  cases kind with
  | classDecl decl =>
      exact leadsTo_enterClass decl span children p
  | fieldDecl decl =>
      exact leadsTo_declareField decl span children p
  | methodDecl decl =>
      exact leadsTo_enterMethod decl span children p
  | varDef definition =>
      exact leadsTo_defineVariables definition span children p
  | assignment assignment =>
      exact leadsTo_checkAssignment assignment span p
  | closedConditional conditional =>
      exact
        leadsTo_enterConditional conditional span children p
  | closedLoop =>
      rw [LeadsTo, ensures_change]
      rfl
  | openConditional => exact hNothing
  | openLoop => exact hNothing
  | block => exact hNothing
  | expression expr => exact hNothing
  | other => exact hNothing

end PassM

end ScopeAnalysis
