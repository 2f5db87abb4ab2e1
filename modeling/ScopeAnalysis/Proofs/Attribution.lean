import ScopeAnalysis.Proofs.Hearing

/-
  Which diagnostics a node can be given.

  Key definitions include:
    * `MethodDecl.HeaderFindings`
    * `Node.Admits`
    * `AttributesDiagnostics`

  Key theorems include:
    * `Node.admits_violations`
    * `attributesDiagnostics`

  The diagnostics of an analysis are one list for each node,
  put one behind the other in pre-order.  The kind of a node
  bounds what its list can be, and leaving nodes adds none.
-/

------------------------------------------------------------
-- Bounds
------------------------------------------------------------

namespace ScopeAnalysis

/-
  What the check of a header finds.  A return type is found
  to be wrong when the rule expects another, and parameters
  are when there are more or fewer labelled names than the
  identifiers behind the method's own name.
-/
structure MethodDecl.HeaderFindings
    (options : Options)
    (decl : MethodDecl)
    (start : Position)
    (types counts : List Diagnostic) : Prop where
  wrong_type :
    ∀ expected,
      options.returnTypeRule = .expect expected →
        decl.returnType ≠ expected →
          types =
            [ .returnTypeMismatch decl.name expected
                decl.returnType start ]
  right_type :
    (∀ expected,
        options.returnTypeRule = .expect expected →
          decl.returnType = expected) →
      types = []
  wrong_count :
    decl.paramNames.length ≠ decl.identifiers.length - 1 →
      counts =
        [ .parameterCountMismatch decl.name
            decl.paramNames.length
            (decl.identifiers.length - 1) start ]
  right_count :
    decl.paramNames.length = decl.identifiers.length - 1 →
      counts = []

/-
  The lists of diagnostics that a node can be given.  Only a
  wrong argument is reported elsewhere than at the start of
  its node.
-/
def Node.Admits
    (options : Options)
    (node : Node)
    (ds : List Diagnostic) : Prop :=
  match node.kind with
  | .classDecl decl =>
      ds = [] ∨
        ds = [.classAlreadyDefined decl.name node.span.start]
  | .fieldDecl decl =>
      ds = [] ∨
        ds = [.fieldAlreadyDefined decl.name node.span.start]
  | .methodDecl decl =>
      ds =
          [ .methodAlreadyDefined decl.name
              node.span.start ] ∨
        ∃ types counts,
          ds = types ++ counts ∧
            decl.HeaderFindings options node.span.start
              types counts
  | .varDef definition =>
      ds = [] ∨
        (∃ callee expected found,
          ds =
            [ .wrongNumberOfArguments callee expected found
                node.span.start ]) ∨
        ∃ expr ∈ definition.initializers,
          ∃ callee argument expected found,
            ds =
              [ .argumentTypeMismatch callee argument
                  expected found expr.position ]
  | .assignment _ =>
      ds = [] ∨
        ∃ d,
          ds = [d] ∧ d.category = .indexError ∧
            d.position = node.span.start
  | .closedConditional _ => ds = []
  | .closedLoop => ds = []
  | .openConditional => ds = []
  | .openLoop => ds = []
  | .block => ds = []
  | .expression _ => ds = []
  | .other => ds = []

end ScopeAnalysis

------------------------------------------------------------
-- Checks Within Bounds
------------------------------------------------------------

namespace ScopeAnalysis

theorem headerFindings
    (options : Options)
    (decl : MethodDecl)
    (start : Position) :
    decl.HeaderFindings options start
      (returnTypeViolations options.returnTypeRule decl
        start)
      (parameterCountViolations decl start) where
  wrong_type := by
    intro expected hRule hType
    have hOther : ¬ expected = decl.returnType :=
      fun hEq => hType hEq.symm
    simp [returnTypeViolations, ReturnTypeRule.violation?,
      hRule, hOther]
  right_type := by
    intro hRight
    unfold returnTypeViolations ReturnTypeRule.violation?
    cases hRule : options.returnTypeRule with
    | disabled => rfl
    | expect expected => simp [hRight expected hRule]
  wrong_count := by
    intro hCount
    exact if_neg hCount
  right_count := by
    intro hCount
    exact if_pos hCount

/- At most one call of a definition is reported. -/
theorem callViolation_bounds
    (options : Options)
    (r : Registry)
    (start : Position)
    (exprs : List Expr) :
    (callViolation? options r start exprs).toList = [] ∨
      (∃ callee expected found,
        (callViolation? options r start exprs).toList =
          [ .wrongNumberOfArguments callee expected found
              start ]) ∨
      ∃ expr ∈ exprs, ∃ callee argument expected found,
        (callViolation? options r start exprs).toList =
          [ .argumentTypeMismatch callee argument expected
              found expr.position ] := by
  cases hCall : callViolation? options r start exprs with
  | none => exact .inl rfl
  | some d =>
      right
      rcases List.exists_of_findSome?_eq_some hCall with
        ⟨expr, hExpr, hVerdict⟩
      rcases judgeCall_place hVerdict with
        ⟨callee, expected, found, rfl⟩ |
        ⟨callee, argument, expected, found, rfl⟩
      · exact .inl ⟨callee, expected, found, rfl⟩
      · exact .inr
          ⟨expr, hExpr, callee, argument, expected, found,
            rfl⟩

/- A node is blamed for nothing that is out of bounds. -/
theorem Node.admits_violations
    (options : Options)
    (r : Registry)
    (node : Node) :
    node.Admits options (node.violations options r) := by
  unfold Admits violations
  cases node.kind with
  | classDecl decl =>
      simp only
      by_cases hTaken :
          r.has .global (SymbolKey.classKey decl.name)
      · rw [if_pos hTaken]
        exact .inr rfl
      · rw [if_neg hTaken]
        exact .inl rfl
  | fieldDecl decl =>
      simp only
      by_cases hTaken :
          r.has r.current (SymbolKey.fieldKey decl.name)
      · rw [if_pos hTaken]
        exact .inr rfl
      · rw [if_neg hTaken]
        exact .inl rfl
  | methodDecl decl =>
      simp only
      by_cases hTaken :
          r.has r.current
            (SymbolKey.methodKey decl.signature)
      · rw [if_pos hTaken]
        exact .inl rfl
      · rw [if_neg hTaken]
        exact .inr
          ⟨_, _, rfl, headerFindings options decl _⟩
  | varDef definition => exact callViolation_bounds _ _ _ _
  | assignment assignment =>
      simp only
      cases hIndex :
          (judgeIndex r assignment
            node.span.start).diagnostic? with
      | none => exact .inl rfl
      | some d =>
          exact .inr ⟨d, rfl, judgeIndex_place hIndex⟩
  | closedConditional conditional => rfl
  | closedLoop => rfl
  | openConditional => rfl
  | openLoop => rfl
  | block => rfl
  | expression expr => rfl
  | other => rfl

end ScopeAnalysis

------------------------------------------------------------
-- Whole Analyses
------------------------------------------------------------

namespace ScopeAnalysis

/-
  How an analysis whose sink never fails comes to its
  diagnostics.  Every node is visited once, in pre-order,
  and raises a list within the bounds of its kind; neither
  leaving a node nor writing the report raises anything.
-/
structure AttributesDiagnostics
    (options : Options)
    (program : Program) : Prop where
  ends : (runPass options .unlimited program).1 = .ok ()
  nodes :
    (visits options program).map Visit.node =
      Node.preorderAll program.items
  diagnostics :
    (runPass options .unlimited program).2.diagnostics =
      (visits options program).flatMap Visit.raised
  admitted :
    ∀ v ∈ visits options program,
      v.node.Admits options v.raised
  leaving :
    ∀ (p : Pass) node,
      (p.exitNode node).findings = p.findings
  reporting :
    ∀ (p : Pass) source,
      (p.writeReport source).2.findings = p.findings

/- Every analysis comes to its diagnostics in this way. -/
theorem attributesDiagnostics
    (options : Options)
    (program : Program) :
    AttributesDiagnostics options program where
  ends := (runPass_visits options program).1
  nodes := nodes_visits options program
  diagnostics := (runPass_visits options program).2
  admitted := by
    intro v hv
    rcases List.append_of_mem hv with
      ⟨earlier, later, hSplit⟩
    have hWriting := (reached_of_visits hSplit).1
    rw [← visitsOver_unlimited] at hv
    have hOptions := options_of_mem_visitsOver hv
    rw [Visit.raised_eq hWriting, hOptions]
    exact v.node.admits_violations options _
  leaving := Pass.findings_exitNode
  reporting := Pass.findings_writeReport

end ScopeAnalysis
