import ScopeAnalysis.Proofs.Declaring

/-
  The kinds of symbols that nodes declare.

  Key definitions include:
    * `SymbolKind.keyInitial`
    * `NodeKind.symbolKind?`
    * `RegistryOp.DeclaresOnly`

  Key theorems include:
    * `kind_of_mem_calls`
    * `taken_before_iff`

  A node declares symbols of one kind at most, and keys of
  different kinds begin with different characters.  An alias
  begins as the key that it was made from, so what has taken
  a key is always of the kind that the key is for.
-/

------------------------------------------------------------
-- First Characters Of Keys
------------------------------------------------------------

namespace ScopeAnalysis

/- The first character of the keys of a kind of symbol. -/
def SymbolKind.keyInitial : SymbolKind → Char
| .classType => 'c'
| .field => 'f'
| .method => 'm'
| .var => 'v'
| .ifMarker => 'i'
| .elseMarker => 'e'
| .loopMarker => 'w'

theorem SymbolKind.keyInitial_injective :
    Function.Injective SymbolKind.keyInitial := by
  intro a b
  cases a <;> cases b <;> decide

end ScopeAnalysis

------------------------------------------------------------
-- Kinds Of Declared Symbols
------------------------------------------------------------

namespace ScopeAnalysis

/- The kind of symbol that a kind of node declares. -/
def NodeKind.symbolKind? : NodeKind → Option SymbolKind
| .classDecl _ => some .classType
| .fieldDecl _ => some .field
| .methodDecl _ => some .method
| .varDef _ => some .var
| .closedConditional _ => some .ifMarker
| .closedLoop => some .loopMarker
| .assignment _ => none
| .openConditional => none
| .openLoop => none
| .block => none
| .expression _ => none
| .other => none

/- A use that declares symbols of one kind at most. -/
def RegistryOp.DeclaresOnly
    (kind : SymbolKind) : RegistryOp → Prop
| .enter _ => True
| .exit => True
| .declare _ key symbol _ =>
    symbol.kind = kind ∧
      key.toList.head? = some kind.keyInitial
| .declareHere key symbol _ =>
    symbol.kind = kind ∧
      key.toList.head? = some kind.keyInitial

theorem declaresOnly_declarations
    (node : Node) :
    ∀ op ∈ node.declarations,
      ∃ kind,
        node.kind.symbolKind? = some kind ∧
          op.DeclaresOnly kind := by
  have hBlock :
      ∀ id key kind span,
        key.toList.head? = some kind.keyInitial →
          ∀ op ∈ Node.blockDeclarations id key kind span,
            op.DeclaresOnly kind := by
    intro id key kind span hKey op hOp
    simp only [Node.blockDeclarations, List.mem_cons,
      List.not_mem_nil, or_false] at hOp
    rcases hOp with rfl | rfl
    · trivial
    · exact ⟨rfl, hKey⟩
  intro op hOp
  unfold Node.declarations at hOp
  unfold NodeKind.symbolKind?
  cases hKind : node.kind with
  | classDecl decl =>
      rw [hKind] at hOp
      rw [List.mem_singleton.mp hOp]
      exact ⟨_, rfl, rfl, by simp [SymbolKey.classKey,
        SymbolKind.keyInitial]⟩
  | fieldDecl decl =>
      rw [hKind] at hOp
      rw [List.mem_singleton.mp hOp]
      exact ⟨_, rfl, rfl, by simp [SymbolKey.fieldKey,
        SymbolKind.keyInitial]⟩
  | methodDecl decl =>
      rw [hKind] at hOp
      rw [List.mem_singleton.mp hOp]
      exact ⟨_, rfl, rfl, by simp [SymbolKey.methodKey,
        SymbolKind.keyInitial]⟩
  | varDef definition =>
      rw [hKind] at hOp
      rcases List.mem_map.mp hOp with ⟨name, _, rfl⟩
      exact ⟨_, rfl, rfl, by simp [SymbolKey.variableKey,
        SymbolKind.keyInitial]⟩
  | closedConditional conditional =>
      rw [hKind] at hOp
      exact ⟨_, rfl, hBlock _ _ _ _ rfl op hOp⟩
  | closedLoop =>
      rw [hKind] at hOp
      exact ⟨_, rfl, hBlock _ _ _ _ rfl op hOp⟩
  | assignment assignment => simp [hKind] at hOp
  | openConditional => simp [hKind] at hOp
  | openLoop => simp [hKind] at hOp
  | block => simp [hKind] at hOp
  | expression expr => simp [hKind] at hOp
  | other => simp [hKind] at hOp

/- A declared symbol is of the kind its node declares. -/
theorem kind_of_mem_calls
    {v : Visit}
    {c : DeclareCall}
    (hc : c ∈ v.calls) :
    v.node.kind.symbolKind? = some c.symbol.kind ∧
      c.key.toList.head? =
        some c.symbol.kind.keyInitial := by
  rcases Registry.exists_callsOf_of_mem_calls hc with
    ⟨op, hOp, s, hs⟩
  rcases declaresOnly_declarations v.node op hOp with
    ⟨kind, hKind, hOnly⟩
  cases op with
  | enter id => cases hs
  | exit => cases hs
  | declare scope key symbol position =>
      rw [Registry.callsOf, List.mem_singleton] at hs
      rcases hOnly with ⟨rfl, hKey⟩
      rw [hs]
      exact ⟨hKind, hKey⟩
  | declareHere key symbol position =>
      rw [Registry.callsOf, List.mem_singleton] at hs
      rcases hOnly with ⟨rfl, hKey⟩
      rw [hs]
      exact ⟨hKind, hKey⟩

/-
  A key that begins as a kind requires is taken at a visit
  exactly when an earlier visit declared it, for a symbol of
  that kind, or stored such a symbol under it as an alias.
-/
theorem taken_before_iff
    {options : Options}
    {program : Program}
    {earlier later : List Visit}
    {v : Visit}
    (h : visits options program = earlier ++ v :: later)
    (scope : ScopeId)
    {key : String}
    {kind : SymbolKind}
    (hKey : key.toList.head? = some kind.keyInitial) :
    (∃ found,
        v.before.registry.lookup scope key = some found) ↔
      ∃ u ∈ earlier, ∃ c ∈ u.calls,
        c.symbol.kind = kind ∧ c.scope = scope ∧
          (c.key = key ∨
            ∃ existing,
              c.answer = .conflict existing key) := by
  rw [(reached_of_visits h).2.taken_iff]
  constructor
  · rintro ⟨c, hc, hScope, hTaken⟩
    rcases List.mem_flatMap.mp hc with ⟨u, hu, hc⟩
    refine ⟨u, hu, c, hc, ?_, hScope, hTaken⟩
    have hInitial := (kind_of_mem_calls hc).2
    -- An alias begins as the key it was made from.
    have hSame : key.toList.head? = c.key.toList.head? := by
      rcases hTaken with rfl | ⟨existing, hAnswer⟩
      · rfl
      · rcases Registry.alias_of_mem_calls hc hAnswer with
          ⟨suffix, rfl⟩
        rw [String.toList_append, List.head?_append,
          hInitial]
        rfl
    rw [hKey, hInitial, Option.some.injEq] at hSame
    exact SymbolKind.keyInitial_injective hSame.symm
  · rintro ⟨u, hu, c, hc, _, hScope, hTaken⟩
    exact ⟨c, List.mem_flatMap.mpr ⟨u, hu, hc⟩, hScope,
      hTaken⟩

end ScopeAnalysis
