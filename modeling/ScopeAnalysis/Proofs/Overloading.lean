import ScopeAnalysis.Proofs.Duplicates
import ScopeAnalysis.Proofs.Signature

/-
  When a method is reported as a duplicate.

  Key definitions include:
    * `Visit.methodCall`
    * `DecidesOverloads`

  Key theorems include:
    * `alias_ne_methodKey`
    * `method_reported_iff`
    * `method_reported_iff_of_readable`
    * `decidesOverloads`

  The key of a method ends in a parenthesis and every alias
  ends in a digit.  The key is therefore taken by a method
  of the same signature only, which may be a duplicate
  itself, and a report is right about every method.
-/

------------------------------------------------------------
-- Visits Of Methods
------------------------------------------------------------

namespace ScopeAnalysis

namespace Visit

/- How a visit declares a method, and how it is answered. -/
def methodCall
    (v : Visit)
    (decl : MethodDecl) : DeclareCall :=
  v.before.registry.callFor v.scope
    (SymbolKey.methodKey decl.signature)
    (.ofMethod decl.name decl.returnType decl.access
      decl.formals)
    v.node.span.start

theorem calls_method
    {v : Visit}
    {decl : MethodDecl}
    (hKind : v.node.kind = .methodDecl decl) :
    v.calls = [v.methodCall decl] := by
  simp only [calls, Node.declarations, hKind]
  rfl

theorem methodCall_mem_calls
    {v : Visit}
    {decl : MethodDecl}
    (hKind : v.node.kind = .methodDecl decl) :
    v.methodCall decl ∈ v.calls := by
  rw [calls_method hKind]
  exact List.mem_singleton_self _

/- Only visits of methods declare methods. -/
theorem method_of_mem_calls
    {v : Visit}
    {c : DeclareCall}
    (hc : c ∈ v.calls)
    (hMethod : c.symbol.kind = .method) :
    ∃ decl,
      v.node.kind = .methodDecl decl ∧
        c = v.methodCall decl := by
  have hKind := (kind_of_mem_calls hc).1
  rw [hMethod] at hKind
  cases hNode : v.node.kind with
  | methodDecl decl =>
      rw [calls_method hNode, List.mem_singleton] at hc
      exact ⟨decl, rfl, hc⟩
  | _ => simp [hNode, NodeKind.symbolKind?] at hKind

/- A method is reported when its scope has its key. -/
theorem raises_method_iff
    {v : Visit}
    (hv : v.before.Writing)
    {decl : MethodDecl}
    (hKind : v.node.kind = .methodDecl decl) :
    v.Raises .methodAlreadyDefined ↔
      ∃ existing,
        v.before.registry.lookup v.scope
            (SymbolKey.methodKey decl.signature) =
          some existing := by
  rw [Raises, raised_eq hv, ← Registry.has_iff, scope]
  simp only [Node.violations, hKind]
  by_cases hTaken :
      v.before.registry.has v.before.registry.current
        (SymbolKey.methodKey decl.signature)
  · simp [hTaken, Diagnostic.code]
  · -- A checked header raises codes of its own.
    rw [if_neg hTaken, iff_false_right hTaken]
    intro hRaised
    rcases List.mem_map.mp hRaised with ⟨d, hd, hCode⟩
    rcases code_of_mem_headerViolations hd with h | h
    · rw [h] at hCode
      cases hCode
    · rw [h] at hCode
      cases hCode

end Visit

end ScopeAnalysis

------------------------------------------------------------
-- Keys Of Methods
------------------------------------------------------------

namespace ScopeAnalysis

theorem SymbolKey.methodKey_inj
    {a b : String} :
    methodKey a = methodKey b ↔ a = b :=
  String.append_right_inj _

/- The key of a method ends in a parenthesis. -/
theorem MethodDecl.not_endsInDigit_methodKey
    (m : MethodDecl) :
    ¬ EndsInDigit (SymbolKey.methodKey m.signature) := by
  have hKey :
      ∃ lead, SymbolKey.methodKey m.signature = lead ++ ")" :=
    ⟨_, (String.append_assoc ..).symm⟩
  rcases hKey with ⟨lead, hKey⟩
  rintro ⟨digit, hDigit, hIsDigit⟩
  have hLast : (lead ++ ")").toList.getLast? = some ')' := by
    simp
  rw [hKey, hLast, Option.some.injEq] at hDigit
  rw [← hDigit] at hIsDigit
  exact absurd hIsDigit (by decide)

/- No alias is spelled like the key of a method. -/
theorem alias_ne_methodKey
    {v : Visit}
    {c : DeclareCall}
    {existing : Symbol}
    {storedAs : String}
    (hc : c ∈ v.calls)
    (hAnswer : c.answer = .conflict existing storedAs)
    (m : MethodDecl) :
    storedAs ≠ SymbolKey.methodKey m.signature := by
  rcases Registry.freeAlias_of_mem_calls hc hAnswer with
    ⟨t, rfl⟩
  intro hEq
  have hDigit := t.endsInDigit_freeAlias c.key c.position
  rw [hEq] at hDigit
  exact m.not_endsInDigit_methodKey hDigit

end ScopeAnalysis

------------------------------------------------------------
-- Exact Conditions
------------------------------------------------------------

namespace ScopeAnalysis

variable {options : Options}
variable {program : Program}
variable {earlier later : List Visit}
variable {v : Visit}

/-
  A method is reported when an earlier method has the same
  signature in the same scope.
-/
theorem method_reported_iff
    (h : visits options program = earlier ++ v :: later)
    {decl : MethodDecl}
    (hKind : v.node.kind = .methodDecl decl) :
    v.Raises .methodAlreadyDefined ↔
      ∃ u ∈ earlier, ∃ other,
        u.node.kind = .methodDecl other ∧
          u.scope = v.scope ∧
            other.signature = decl.signature := by
  have hInitial :
      (SymbolKey.methodKey decl.signature).toList.head? =
        some SymbolKind.method.keyInitial := by
    simp [SymbolKey.methodKey, SymbolKind.keyInitial]
  rw [Visit.raises_method_iff (reached_of_visits h).1 hKind,
    taken_before_iff h v.scope hInitial]
  constructor
  · rintro ⟨u, hu, c, hc, hMethod, hScope, hTaken⟩
    rcases Visit.method_of_mem_calls hc hMethod with
      ⟨other, hOther, rfl⟩
    rcases hTaken with hKey | ⟨existing, hAlias⟩
    · exact ⟨u, hu, other, hOther, hScope,
        SymbolKey.methodKey_inj.mp hKey⟩
    · exact absurd rfl (alias_ne_methodKey hc hAlias decl)
  · rintro ⟨u, hu, other, hOther, hScope, hSignature⟩
    exact ⟨u, hu, u.methodCall other,
      Visit.methodCall_mem_calls hOther, rfl, hScope,
      .inl (SymbolKey.methodKey_inj.mpr hSignature)⟩

/-
  Among methods whose signatures can be read back, that is
  one of the same name with the same types in order.
-/
theorem method_reported_iff_of_readable
    (h : visits options program = earlier ++ v :: later)
    {decl : MethodDecl}
    (hKind : v.node.kind = .methodDecl decl)
    (hReadable : decl.Readable)
    (hEarlier :
      ∀ u ∈ earlier, ∀ other,
        u.node.kind = .methodDecl other →
          u.scope = v.scope → other.Readable) :
    v.Raises .methodAlreadyDefined ↔
      ∃ u ∈ earlier, ∃ other,
        u.node.kind = .methodDecl other ∧
          u.scope = v.scope ∧
            other.name = decl.name ∧
              other.formals.map Parameter.type =
                decl.formals.map Parameter.type := by
  rw [method_reported_iff h hKind]
  constructor
  · rintro ⟨u, hu, other, hOther, hScope, hSignature⟩
    exact ⟨u, hu, other, hOther, hScope,
      (MethodDecl.signature_inj
        (hEarlier u hu other hOther hScope)
        hReadable).mp hSignature⟩
  · rintro ⟨u, hu, other, hOther, hScope, hParts⟩
    exact ⟨u, hu, other, hOther, hScope,
      (MethodDecl.signature_inj
        (hEarlier u hu other hOther hScope)
        hReadable).mpr hParts⟩

/-
  How an analysis whose sink never fails tells methods
  apart: which visits of its nodes, which come in pre-order,
  raise a duplicate, and what the signatures that decide
  about it say.
-/
structure DecidesOverloads
    (options : Options)
    (program : Program) : Prop where
  ends : (runPass options .unlimited program).1 = .ok ()
  diagnostics :
    (runPass options .unlimited program).2.diagnostics =
      (visits options program).flatMap Visit.raised
  nodes :
    (visits options program).map Visit.node =
      Node.preorderAll program.items
  methods :
    ∀ earlier v later decl,
      visits options program = earlier ++ v :: later →
        v.node.kind = .methodDecl decl →
          (v.Raises .methodAlreadyDefined ↔
            ∃ u ∈ earlier, ∃ other,
              u.node.kind = .methodDecl other ∧
                u.scope = v.scope ∧
                  other.signature = decl.signature)
  aliases :
    ∀ v ∈ visits options program, ∀ c ∈ v.calls,
      ∀ existing storedAs,
        c.answer = .conflict existing storedAs →
          ∀ m : MethodDecl,
            storedAs ≠ SymbolKey.methodKey m.signature
  signatures :
    ∀ m n : MethodDecl,
      m.Readable →
        n.Readable →
          (m.signature = n.signature ↔
            m.name = n.name ∧
              m.formals.map Parameter.type =
                n.formals.map Parameter.type)
  declared :
    ∀ m : MethodDecl,
      m.hasParams →
        m.paramTypes.length ≤ m.captured →
          m.formals.map Parameter.type = m.paramTypes
  built :
    ∀ name returnType access parts,
      (MethodDecl.ofParts
          name returnType access parts).formals.map
            Parameter.type =
        (MethodDecl.ofParts
          name returnType access parts).paramTypes
  overloads :
    ∀ earlier v later decl,
      visits options program = earlier ++ v :: later →
        v.node.kind = .methodDecl decl →
          decl.Readable →
            (∀ u ∈ earlier, ∀ other,
              u.node.kind = .methodDecl other →
                u.scope = v.scope → other.Readable) →
              (v.Raises .methodAlreadyDefined ↔
                ∃ u ∈ earlier, ∃ other,
                  u.node.kind = .methodDecl other ∧
                    u.scope = v.scope ∧
                      other.name = decl.name ∧
                        other.formals.map Parameter.type =
                          decl.formals.map Parameter.type)

/- Every analysis tells methods apart in this way. -/
theorem decidesOverloads
    (options : Options)
    (program : Program) :
    DecidesOverloads options program where
  ends := (runPass_visits options program).1
  diagnostics := (runPass_visits options program).2
  nodes := nodes_visits options program
  methods := fun _ _ _ _ h hKind =>
    method_reported_iff h hKind
  aliases := fun _ _ _ hc _ _ hAnswer =>
    alias_ne_methodKey hc hAnswer
  signatures := fun _ _ hm hn =>
    MethodDecl.signature_inj hm hn
  declared := fun _ hLabel h =>
    MethodDecl.types_formals hLabel h
  built := MethodDecl.types_formals_ofParts
  overloads := fun _ _ _ _ h hKind =>
    method_reported_iff_of_readable h hKind

end ScopeAnalysis
