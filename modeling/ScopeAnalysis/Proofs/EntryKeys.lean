import ScopeAnalysis.Proofs.Declaring
import ScopeAnalysis.Proofs.Moves

/-
  Keys, kinds and scopes of stored symbols.

  Key definitions include:
    * `SpelledFrom`
    * `Symbol.key?`
    * `Symbol.LivesIn`
    * `Symbol.WellPlaced`
    * `Registry.Orderly`

  Key theorems include:
    * `agrees_of_mem_calls`
    * `Registry.Orderly.wellPlaced_of_lookup`
    * `Registry.Orderly.wellPlaced_of_mem`
    * `Pass.enduring_orderly`

  A handler declares a symbol under the key that the symbol
  itself calls for, and in a scope that suits its kind.  The
  table may turn the key into an alias, but into no other
  key, so every entry can be read back from its symbol.
-/

------------------------------------------------------------
-- Spellings
------------------------------------------------------------

namespace ScopeAnalysis

/-
  The keys that a base can turn into: the base, the base with
  a line and a column behind it, and this again with a
  counter, which starts from two.
-/
inductive SpelledFrom (base : String) : String → Prop where
| bare :
    SpelledFrom base base
| placed
    (line column : Nat) :
    SpelledFrom base
      (base ++ "_" ++ toString line ++
        "_" ++ toString column)
| counted
    (line column counter : Nat)
    (hCounter : 2 ≤ counter) :
    SpelledFrom base
      (base ++ "_" ++ toString line ++
        "_" ++ toString column ++ "_" ++ toString counter)

/- Whatever is spelled from a base begins with it. -/
theorem SpelledFrom.exists_suffix
    {base key : String}
    (h : SpelledFrom base key) :
    ∃ suffix, key = base ++ suffix := by
  cases h with
  | bare => exact ⟨"", by simp⟩
  | placed line column =>
      simp only [String.append_assoc]
      exact ⟨_, rfl⟩
  | counted line column counter hCounter =>
      simp only [String.append_assoc]
      exact ⟨_, rfl⟩

/- An alias is spelled from the key it was made from. -/
theorem ScopeTable.spelledFrom_freeAlias
    (t : ScopeTable)
    (key : String)
    (position : Position) :
    SpelledFrom key (t.freeAlias key position) := by
  unfold freeAlias
  cases t.freeIndex (aliasKey key position) with
  | zero => exact .placed position.line position.column
  | succ n =>
      apply SpelledFrom.counted
      omega

/- A declared symbol's place is spelled from its key. -/
theorem Registry.spelledFrom_of_mem_calls
    {r : Registry}
    {ops : List RegistryOp}
    {c : DeclareCall}
    (hc : c ∈ r.calls ops) :
    SpelledFrom c.key c.place.2 := by
  unfold DeclareCall.place
  cases hAnswer : c.answer with
  | declared => exact .bare
  | conflict existing storedAs =>
      rcases freeAlias_of_mem_calls hc hAnswer with
        ⟨t, rfl⟩
      exact t.spelledFrom_freeAlias c.key c.position

end ScopeAnalysis

------------------------------------------------------------
-- Keys And Scopes Of Symbols
------------------------------------------------------------

namespace ScopeAnalysis

namespace Symbol

/-
  The key that a symbol calls for.  Nothing marks the scope
  of an else-branch, so there is no key for such a marker.
-/
def key? (s : Symbol) : Option String :=
  match s.kind with
  | .classType => some (SymbolKey.classKey s.name)
  | .field => some (SymbolKey.fieldKey s.name)
  | .method =>
      some
        (SymbolKey.methodKey
          (methodSignature s.name s.parameters))
  | .var => some (SymbolKey.variableKey s.name)
  | .ifMarker => some SymbolKey.ifMarker
  | .elseMarker => none
  | .loopMarker => some SymbolKey.loopMarker

/-
  The scopes that a symbol can be stored in: classes in the
  global one, a marker in the block that it is named after,
  and all others anywhere.
-/
def LivesIn
    (s : Symbol)
    (scope : ScopeId) : Prop :=
  match s.kind with
  | .classType => scope = .global
  | .ifMarker =>
      scope.text = s.name ∧
        ∃ first last, scope = .ofIf first last
  | .loopMarker =>
      scope.text = s.name ∧
        ∃ first last, scope = .ofWhile first last
  | .elseMarker => False
  | .field => True
  | .method => True
  | .var => True

/- Kind, key and scope of a stored symbol agree. -/
structure WellPlaced
    (s : Symbol)
    (scope : ScopeId)
    (key : String) : Prop where
  kind_ne : s.kind ≠ .elseMarker
  spelled :
    ∃ base, s.key? = some base ∧ SpelledFrom base key
  lives : s.LivesIn scope

end Symbol

/- A symbol is declared as it calls for. -/
structure DeclareCall.Agrees (c : DeclareCall) : Prop where
  key : c.symbol.key? = some c.key
  lives : c.symbol.LivesIn c.scope

/- A use that declares symbols only as they call for. -/
def RegistryOp.Agrees : RegistryOp → Prop
| .enter _ => True
| .exit => True
| .declare scope key symbol _ =>
    symbol.key? = some key ∧ symbol.LivesIn scope
| .declareHere key symbol _ =>
    symbol.key? = some key ∧
      ∀ scope, symbol.LivesIn scope

/- Nodes declare symbols as these call for. -/
theorem agrees_declarations
    (node : Node) :
    ∀ op ∈ node.declarations, op.Agrees := by
  intro op hOp
  unfold Node.declarations at hOp
  cases hKind : node.kind with
  | classDecl decl =>
      rw [hKind] at hOp
      rw [List.mem_singleton.mp hOp]
      exact ⟨rfl, rfl⟩
  | fieldDecl decl =>
      rw [hKind] at hOp
      rw [List.mem_singleton.mp hOp]
      exact ⟨rfl, fun _ => trivial⟩
  | methodDecl decl =>
      rw [hKind] at hOp
      rw [List.mem_singleton.mp hOp]
      exact ⟨rfl, fun _ => trivial⟩
  | varDef definition =>
      rw [hKind] at hOp
      rcases List.mem_map.mp hOp with ⟨name, _, rfl⟩
      exact ⟨rfl, fun _ => trivial⟩
  | closedConditional conditional =>
      simp only [hKind, Node.blockDeclarations,
        List.mem_cons, List.not_mem_nil, or_false] at hOp
      rcases hOp with rfl | rfl
      · trivial
      · exact ⟨rfl, rfl, _, _, rfl⟩
  | closedLoop =>
      simp only [hKind, Node.blockDeclarations,
        List.mem_cons, List.not_mem_nil, or_false] at hOp
      rcases hOp with rfl | rfl
      · trivial
      · exact ⟨rfl, rfl, _, _, rfl⟩
  | assignment assignment => simp [hKind] at hOp
  | openConditional => simp [hKind] at hOp
  | openLoop => simp [hKind] at hOp
  | block => simp [hKind] at hOp
  | expression expr => simp [hKind] at hOp
  | other => simp [hKind] at hOp

theorem agrees_of_mem_calls
    {node : Node}
    {r : Registry}
    {c : DeclareCall}
    (hc : c ∈ r.calls node.declarations) :
    c.Agrees := by
  rcases Registry.exists_callsOf_of_mem_calls hc with
    ⟨op, hOp, s, hs⟩
  have hAgrees := agrees_declarations node op hOp
  cases op with
  | enter id => cases hs
  | exit => cases hs
  | declare scope key symbol position =>
      rw [Registry.callsOf, List.mem_singleton] at hs
      rw [hs]
      exact ⟨hAgrees.1, hAgrees.2⟩
  | declareHere key symbol position =>
      rw [Registry.callsOf, List.mem_singleton] at hs
      rw [hs]
      exact ⟨hAgrees.1, hAgrees.2 s.current⟩

end ScopeAnalysis

------------------------------------------------------------
-- Orderly Registries
------------------------------------------------------------

namespace ScopeAnalysis

namespace Registry

/- Only symbols that agree with their calls were declared. -/
def Orderly (r : Registry) : Prop :=
  ∃ calls,
    initial.Yields calls r ∧ ∀ c ∈ calls, c.Agrees

/- Further declarations that agree change nothing about it. -/
theorem Orderly.yields
    {r s : Registry}
    {calls : List DeclareCall}
    (h : r.Orderly)
    (hYields : r.Yields calls s)
    (hAgree : ∀ c ∈ calls, c.Agrees) :
    s.Orderly := by
  rcases h with ⟨earlier, hEarlier, hBefore⟩
  refine ⟨earlier ++ calls, hEarlier.trans hYields, ?_⟩
  intro c hc
  rcases List.mem_append.mp hc with hOld | hNew
  · exact hBefore c hOld
  · exact hAgree c hNew

theorem Orderly.declarations
    {r : Registry}
    (h : r.Orderly)
    (node : Node) :
    (r.afterOps node.declarations).Orderly :=
  h.yields (r.yields_afterOps node.declarations)
    fun _ hc => agrees_of_mem_calls hc

theorem Orderly.entered
    {r : Registry}
    (h : r.Orderly)
    (node : Node) :
    (r.afterOps
      (node.declarations ++ node.openings r)).Orderly :=
  h.yields (Frame.yields_enter ⟨r, .empty⟩ node)
    fun _ hc => agrees_of_mem_calls hc

theorem Orderly.exit
    {r : Registry}
    (h : r.Orderly) :
    r.exit.2.Orderly :=
  h.yields (Yields.refl r).exit fun _ hc => by cases hc

/- What is found in an orderly registry is well placed. -/
theorem Orderly.wellPlaced_of_lookup
    {r : Registry}
    (h : r.Orderly)
    {scope : ScopeId}
    {key : String}
    {symbol : Symbol}
    (hFound : r.lookup scope key = some symbol) :
    symbol.WellPlaced scope key := by
  rcases h with ⟨calls, ⟨ops, rfl, rfl⟩, hAgree⟩
  rcases ((stores_afterOps ops).lookup_iff _ _ _).mp hFound
    with ⟨c, hc, hPlace, rfl⟩
  have hAgrees := hAgree c hc
  have hSpelled := spelledFrom_of_mem_calls hc
  have hScope : c.scope = scope := congrArg Prod.fst hPlace
  have hKey : c.place.2 = key := congrArg Prod.snd hPlace
  rw [hKey] at hSpelled
  refine ⟨?_, ⟨c.key, hAgrees.key, hSpelled⟩, ?_⟩
  · intro hElse
    have hNone := hAgrees.key
    simp [Symbol.key?, hElse] at hNone
  · rw [← hScope]
    exact hAgrees.lives

/- An entry of a table is what its key is looked up to. -/
theorem lookup_of_mem_entries
    {r : Registry}
    {table : ScopeId × ScopeTable}
    {entry : String × Symbol}
    (hTable : table ∈ r.scopes.entries)
    (hEntry : entry ∈ table.2.entries) :
    r.lookup table.1 entry.1 = some entry.2 := by
  have hFound : r.table? table.1 = some table.2 :=
    Entries.lookup_of_mem r.scopes.nodup_keys hTable
  rw [lookup, tableOf, hFound, Option.getD_some]
  exact Entries.lookup_of_mem table.2.nodup_keys hEntry

end Registry

end ScopeAnalysis

------------------------------------------------------------
-- Orderly Passes
------------------------------------------------------------

namespace ScopeAnalysis

/- Every move leaves an orderly registry orderly. -/
theorem Pass.enduring_orderly :
    Enduring fun p => p.registry.Orderly := by
  apply enduring_of_registry
  · intro node r h
    exact h.declarations node
  · intro node r h
    exact h.entered node
  · intro r h
    exact h.exit

end ScopeAnalysis
