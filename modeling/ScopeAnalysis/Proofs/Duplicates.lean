import ScopeAnalysis.Proofs.DeclaredKinds
import ScopeAnalysis.Proofs.Findings

/-
  When a class or a field is reported as a duplicate.

  Key definitions include:
    * `Visit.Raises`
    * `Visit.classCall`
    * `Visit.fieldCall`
    * `ReportsDuplicates`

  Key theorems include:
    * `class_reported_iff`
    * `class_reported_iff_of_plain`
    * `reportsDuplicates`

  A duplicate is noticed when its key is taken.  Only
  classes take the keys of classes, and only fields those of
  fields.  A symbol that is a duplicate itself takes its
  alias too, which may be the key of a name that nobody has
  declared.
-/

------------------------------------------------------------
-- Visits Of Classes And Fields
------------------------------------------------------------

namespace ScopeAnalysis

namespace Visit

/- The innermost open scope that a visit finds. -/
def scope (v : Visit) : ScopeId :=
  v.before.registry.current

/- A diagnostic of this code is raised at a visit. -/
def Raises
    (v : Visit)
    (code : DiagnosticCode) : Prop :=
  code ∈ v.raised.map Diagnostic.code

instance
    (v : Visit)
    (code : DiagnosticCode) :
    Decidable (v.Raises code) := by
  unfold Raises
  infer_instance

/- How a visit declares a class, and how it is answered. -/
def classCall
    (v : Visit)
    (decl : ClassDecl) : DeclareCall :=
  v.before.registry.callFor .global
    (SymbolKey.classKey decl.name)
    (.ofClass decl.name decl.access decl.parent)
    v.node.span.start

/- How a visit declares a field, and how it is answered. -/
def fieldCall
    (v : Visit)
    (decl : FieldDecl) : DeclareCall :=
  v.before.registry.callFor v.scope
    (SymbolKey.fieldKey decl.name)
    (.ofField decl.name decl.type decl.access)
    v.node.span.start

theorem calls_class
    {v : Visit}
    {decl : ClassDecl}
    (hKind : v.node.kind = .classDecl decl) :
    v.calls = [v.classCall decl] := by
  simp only [calls, Node.declarations, hKind]
  rfl

theorem calls_field
    {v : Visit}
    {decl : FieldDecl}
    (hKind : v.node.kind = .fieldDecl decl) :
    v.calls = [v.fieldCall decl] := by
  simp only [calls, Node.declarations, hKind]
  rfl

theorem classCall_mem_calls
    {v : Visit}
    {decl : ClassDecl}
    (hKind : v.node.kind = .classDecl decl) :
    v.classCall decl ∈ v.calls := by
  rw [calls_class hKind]
  exact List.mem_singleton_self _

theorem fieldCall_mem_calls
    {v : Visit}
    {decl : FieldDecl}
    (hKind : v.node.kind = .fieldDecl decl) :
    v.fieldCall decl ∈ v.calls := by
  rw [calls_field hKind]
  exact List.mem_singleton_self _

/- Only visits of classes declare classes. -/
theorem class_of_mem_calls
    {v : Visit}
    {c : DeclareCall}
    (hc : c ∈ v.calls)
    (hClass : c.symbol.kind = .classType) :
    ∃ decl,
      v.node.kind = .classDecl decl ∧
        c = v.classCall decl := by
  have hKind := (kind_of_mem_calls hc).1
  rw [hClass] at hKind
  cases hNode : v.node.kind with
  | classDecl decl =>
      rw [calls_class hNode, List.mem_singleton] at hc
      exact ⟨decl, rfl, hc⟩
  | _ => simp [hNode, NodeKind.symbolKind?] at hKind

/- Only visits of fields declare fields. -/
theorem field_of_mem_calls
    {v : Visit}
    {c : DeclareCall}
    (hc : c ∈ v.calls)
    (hField : c.symbol.kind = .field) :
    ∃ decl,
      v.node.kind = .fieldDecl decl ∧
        c = v.fieldCall decl := by
  have hKind := (kind_of_mem_calls hc).1
  rw [hField] at hKind
  cases hNode : v.node.kind with
  | fieldDecl decl =>
      rw [calls_field hNode, List.mem_singleton] at hc
      exact ⟨decl, rfl, hc⟩
  | _ => simp [hNode, NodeKind.symbolKind?] at hKind

/- A class is reported when its key is taken. -/
theorem raises_class_iff
    {v : Visit}
    (hv : v.before.Writing)
    {decl : ClassDecl}
    (hKind : v.node.kind = .classDecl decl) :
    v.Raises .classAlreadyDefined ↔
      ∃ existing,
        v.before.registry.lookup .global
            (SymbolKey.classKey decl.name) =
          some existing := by
  rw [Raises, raised_eq hv, ← Registry.has_iff]
  simp only [Node.violations, hKind]
  by_cases hTaken :
      v.before.registry.has .global
        (SymbolKey.classKey decl.name)
  · simp [hTaken, Diagnostic.code]
  · simp [hTaken]

/- A field is reported when its scope has its key. -/
theorem raises_field_iff
    {v : Visit}
    (hv : v.before.Writing)
    {decl : FieldDecl}
    (hKind : v.node.kind = .fieldDecl decl) :
    v.Raises .fieldAlreadyDefined ↔
      ∃ existing,
        v.before.registry.lookup v.scope
            (SymbolKey.fieldKey decl.name) =
          some existing := by
  rw [Raises, raised_eq hv, ← Registry.has_iff, scope]
  simp only [Node.violations, hKind]
  by_cases hTaken :
      v.before.registry.has v.before.registry.current
        (SymbolKey.fieldKey decl.name)
  · simp [hTaken, Diagnostic.code]
  · simp [hTaken]

end Visit

end ScopeAnalysis

------------------------------------------------------------
-- Exact Conditions
------------------------------------------------------------

namespace ScopeAnalysis

theorem SymbolKey.classKey_inj
    {a b : String} :
    classKey a = classKey b ↔ a = b :=
  String.append_right_inj _

theorem SymbolKey.fieldKey_inj
    {a b : String} :
    fieldKey a = fieldKey b ↔ a = b :=
  String.append_right_inj _

variable {options : Options}
variable {program : Program}
variable {earlier later : List Visit}
variable {v : Visit}

/-
  A class is reported when an earlier class has its name, or
  when one was stored under an alias that is its key.
-/
theorem class_reported_iff
    (h : visits options program = earlier ++ v :: later)
    {decl : ClassDecl}
    (hKind : v.node.kind = .classDecl decl) :
    v.Raises .classAlreadyDefined ↔
      ∃ u ∈ earlier, ∃ other,
        u.node.kind = .classDecl other ∧
          (other.name = decl.name ∨
            ∃ existing,
              (u.classCall other).answer =
                .conflict existing
                  (SymbolKey.classKey decl.name)) := by
  have hInitial :
      (SymbolKey.classKey decl.name).toList.head? =
        some SymbolKind.classType.keyInitial := by
    simp [SymbolKey.classKey, SymbolKind.keyInitial]
  rw [Visit.raises_class_iff (reached_of_visits h).1 hKind,
    taken_before_iff h .global hInitial]
  constructor
  · rintro ⟨u, hu, c, hc, hClass, _, hTaken⟩
    rcases Visit.class_of_mem_calls hc hClass with
      ⟨other, hOther, rfl⟩
    exact ⟨u, hu, other, hOther,
      hTaken.imp_left SymbolKey.classKey_inj.mp⟩
  · rintro ⟨u, hu, other, hOther, hTaken⟩
    exact ⟨u, hu, u.classCall other,
      Visit.classCall_mem_calls hOther, rfl, rfl,
      hTaken.imp_left SymbolKey.classKey_inj.mpr⟩

/- A field is reported likewise, within its own scope. -/
theorem field_reported_iff
    (h : visits options program = earlier ++ v :: later)
    {decl : FieldDecl}
    (hKind : v.node.kind = .fieldDecl decl) :
    v.Raises .fieldAlreadyDefined ↔
      ∃ u ∈ earlier, ∃ other,
        u.node.kind = .fieldDecl other ∧
          u.scope = v.scope ∧
            (other.name = decl.name ∨
              ∃ existing,
                (u.fieldCall other).answer =
                  .conflict existing
                    (SymbolKey.fieldKey decl.name)) := by
  have hInitial :
      (SymbolKey.fieldKey decl.name).toList.head? =
        some SymbolKind.field.keyInitial := by
    simp [SymbolKey.fieldKey, SymbolKind.keyInitial]
  rw [Visit.raises_field_iff (reached_of_visits h).1 hKind,
    taken_before_iff h v.scope hInitial]
  constructor
  · rintro ⟨u, hu, c, hc, hField, hScope, hTaken⟩
    rcases Visit.field_of_mem_calls hc hField with
      ⟨other, hOther, rfl⟩
    exact ⟨u, hu, other, hOther, hScope,
      hTaken.imp_left SymbolKey.fieldKey_inj.mp⟩
  · rintro ⟨u, hu, other, hOther, hScope, hTaken⟩
    exact ⟨u, hu, u.fieldCall other,
      Visit.fieldCall_mem_calls hOther, rfl, hScope,
      hTaken.imp_left SymbolKey.fieldKey_inj.mpr⟩

/-
  Where no earlier class has a name that `_` and more could
  turn into this one, a report says what its message says.
-/
theorem class_reported_iff_of_plain
    (h : visits options program = earlier ++ v :: later)
    {decl : ClassDecl}
    (hKind : v.node.kind = .classDecl decl)
    (hPlain :
      ∀ u ∈ earlier, ∀ other suffix,
        u.node.kind = .classDecl other →
          decl.name ≠ other.name ++ ("_" ++ suffix)) :
    v.Raises .classAlreadyDefined ↔
      ∃ u ∈ earlier, ∃ other,
        u.node.kind = .classDecl other ∧
          other.name = decl.name := by
  rw [class_reported_iff h hKind]
  constructor
  · rintro ⟨u, hu, other, hOther, hName | ⟨existing, hAlias⟩⟩
    · exact ⟨u, hu, other, hOther, hName⟩
    · rcases Registry.alias_of_mem_calls
          (Visit.classCall_mem_calls hOther) hAlias with
        ⟨suffix, hKey⟩
      have hName :
          SymbolKey.classKey decl.name =
            SymbolKey.classKey
              (other.name ++ ("_" ++ suffix)) :=
        hKey.trans (String.append_assoc ..)
      exact absurd (SymbolKey.classKey_inj.mp hName)
        (hPlain u hu other suffix hOther)
  · rintro ⟨u, hu, other, hOther, hName⟩
    exact ⟨u, hu, other, hOther, .inl hName⟩

/- The same for fields, within one scope. -/
theorem field_reported_iff_of_plain
    (h : visits options program = earlier ++ v :: later)
    {decl : FieldDecl}
    (hKind : v.node.kind = .fieldDecl decl)
    (hPlain :
      ∀ u ∈ earlier, ∀ other suffix,
        u.node.kind = .fieldDecl other →
          u.scope = v.scope →
            decl.name ≠ other.name ++ ("_" ++ suffix)) :
    v.Raises .fieldAlreadyDefined ↔
      ∃ u ∈ earlier, ∃ other,
        u.node.kind = .fieldDecl other ∧
          u.scope = v.scope ∧ other.name = decl.name := by
  rw [field_reported_iff h hKind]
  constructor
  · rintro
      ⟨u, hu, other, hOther, hScope,
        hName | ⟨existing, hAlias⟩⟩
    · exact ⟨u, hu, other, hOther, hScope, hName⟩
    · rcases Registry.alias_of_mem_calls
          (Visit.fieldCall_mem_calls hOther) hAlias with
        ⟨suffix, hKey⟩
      have hName :
          SymbolKey.fieldKey decl.name =
            SymbolKey.fieldKey
              (other.name ++ ("_" ++ suffix)) :=
        hKey.trans (String.append_assoc ..)
      exact absurd (SymbolKey.fieldKey_inj.mp hName)
        (hPlain u hu other suffix hOther hScope)
  · rintro ⟨u, hu, other, hOther, hScope, hName⟩
    exact ⟨u, hu, other, hOther, hScope, .inl hName⟩

/-
  How an analysis whose sink never fails reports duplicates
  of classes and of fields: at which visits of its nodes,
  which come in pre-order, the diagnostics are raised.
-/
structure ReportsDuplicates
    (options : Options)
    (program : Program) : Prop where
  ends : (runPass options .unlimited program).1 = .ok ()
  diagnostics :
    (runPass options .unlimited program).2.diagnostics =
      (visits options program).flatMap Visit.raised
  nodes :
    (visits options program).map Visit.node =
      Node.preorderAll program.items
  classes :
    ∀ earlier v later decl,
      visits options program = earlier ++ v :: later →
        v.node.kind = .classDecl decl →
          (v.Raises .classAlreadyDefined ↔
            ∃ u ∈ earlier, ∃ other,
              u.node.kind = .classDecl other ∧
                (other.name = decl.name ∨
                  ∃ existing,
                    (u.classCall other).answer =
                      .conflict existing
                        (SymbolKey.classKey decl.name)))
  fields :
    ∀ earlier v later decl,
      visits options program = earlier ++ v :: later →
        v.node.kind = .fieldDecl decl →
          (v.Raises .fieldAlreadyDefined ↔
            ∃ u ∈ earlier, ∃ other,
              u.node.kind = .fieldDecl other ∧
                u.scope = v.scope ∧
                  (other.name = decl.name ∨
                    ∃ existing,
                      (u.fieldCall other).answer =
                        .conflict existing
                          (SymbolKey.fieldKey decl.name)))

/- Every analysis reports duplicates in this way. -/
theorem reportsDuplicates
    (options : Options)
    (program : Program) :
    ReportsDuplicates options program where
  ends := (runPass_visits options program).1
  diagnostics := (runPass_visits options program).2
  nodes := nodes_visits options program
  classes := fun _ _ _ _ h hKind =>
    class_reported_iff h hKind
  fields := fun _ _ _ _ h hKind =>
    field_reported_iff h hKind

/- A class without a parent, on a single token. -/
def Node.plainClass
    (name : String)
    (line column : Nat) : Node where
  kind := .classDecl ⟨name, none, none⟩
  span := .token line column
  children := []

/-
  A program whose third class has a name of its own, which
  the alias of the second one spells.
-/
def Program.aliasCollision : Program where
  source := "collision"
  items :=
    [ .plainClass "A" 1 0,
      .plainClass "A" 3 4,
      .plainClass "A_3_4" 5 0 ]

/- A class can be reported that was not declared before. -/
theorem undeclared_class_reported :
    ¬ ∀ options program earlier v later decl,
        visits options program = earlier ++ v :: later →
          v.node.kind = .classDecl decl →
            (v.Raises .classAlreadyDefined ↔
              ∃ u ∈ earlier, ∃ other,
                u.node.kind = .classDecl other ∧
                  other.name = decl.name) := by
  intro hClaim
  let start := Pass.entered .standard .aliasCollision
  let middle :=
    start.afterEvents (Node.plainClass "A" 1 0).events
  let last :=
    middle.afterEvents (Node.plainClass "A" 3 4).events
  have hVisits :
      visits .standard .aliasCollision =
        [⟨.plainClass "A" 1 0, start⟩,
          ⟨.plainClass "A" 3 4, middle⟩] ++
          ⟨.plainClass "A_3_4" 5 0, last⟩ :: [] :=
    rfl
  have hRaises :
      Visit.Raises ⟨.plainClass "A_3_4" 5 0, last⟩
        .classAlreadyDefined := by
    decide +kernel
  rcases (hClaim _ _ _ _ _ _ hVisits rfl).mp hRaises with
    ⟨u, hu, other, hOther, hName⟩
  have hFirst : other.name = "A" := by
    simp only [List.mem_cons, List.not_mem_nil,
      or_false] at hu
    rcases hu with rfl | rfl
    · cases hOther
      rfl
    · cases hOther
      rfl
  rw [hFirst] at hName
  exact absurd hName (by decide)

end ScopeAnalysis
