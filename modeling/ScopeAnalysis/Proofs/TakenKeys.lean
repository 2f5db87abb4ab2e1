import ScopeAnalysis.Proofs.SymbolStore

/-
  When a key is taken.

  Key definitions include:
    * `Registry.Yields`

  Key theorems include:
    * `Registry.alias_of_mem_calls`
    * `Registry.bound_of_mem_calls`
    * `Registry.Yields.taken_iff`

  A key is taken in a scope by the declarations that were
  made under it, and also by a conflict that was stored
  under an alias of that very spelling.
-/

------------------------------------------------------------
-- Declarations Along A History
------------------------------------------------------------

namespace ScopeAnalysis

namespace Registry

/- Some history with these declarations leads to `s`. -/
def Yields
    (r : Registry)
    (calls : List DeclareCall)
    (s : Registry) : Prop :=
  ∃ ops, s = r.afterOps ops ∧ r.calls ops = calls

theorem yields_afterOps
    (r : Registry)
    (ops : List RegistryOp) :
    r.Yields (r.calls ops) (r.afterOps ops) :=
  ⟨ops, rfl, rfl⟩

theorem Yields.refl
    (r : Registry) :
    r.Yields [] r :=
  r.yields_afterOps []

theorem Yields.trans
    {r s t : Registry}
    {first second : List DeclareCall}
    (h₁ : r.Yields first s)
    (h₂ : s.Yields second t) :
    r.Yields (first ++ second) t := by
  rcases h₁ with ⟨ops, rfl, rfl⟩
  rcases h₂ with ⟨more, rfl, rfl⟩
  refine ⟨ops ++ more, ?_, ?_⟩
  · rw [afterOps_append]
  · rw [calls_append]

/- Closing a scope declares nothing. -/
theorem Yields.exit
    {r s : Registry}
    {calls : List DeclareCall}
    (h : r.Yields calls s) :
    r.Yields calls s.exit.2 := by
  have hExit : s.Yields [] s.exit.2 :=
    s.yields_afterOps [.exit]
  have hBoth := h.trans hExit
  rwa [List.append_nil] at hBoth

/- A call comes from some use of the history. -/
theorem exists_callsOf_of_mem_calls
    {r : Registry}
    {ops : List RegistryOp}
    {c : DeclareCall}
    (hc : c ∈ r.calls ops) :
    ∃ op ∈ ops, ∃ s : Registry, c ∈ s.callsOf op := by
  induction ops generalizing r with
  | nil => cases hc
  | cons op ops ih =>
      rw [calls] at hc
      rcases List.mem_append.mp hc with hFirst | hRest
      · exact ⟨op, by simp, r, hFirst⟩
      · rcases ih hRest with ⟨other, hOther, s, hs⟩
        exact ⟨other, by simp [hOther], s, hs⟩

/- A conflict names the alias that its table chose. -/
theorem freeAlias_of_mem_calls
    {r : Registry}
    {ops : List RegistryOp}
    {c : DeclareCall}
    {existing : Symbol}
    {storedAs : String}
    (hc : c ∈ r.calls ops)
    (hAnswer : c.answer = .conflict existing storedAs) :
    ∃ t : ScopeTable, storedAs = t.freeAlias c.key c.position := by
  rcases exists_callsOf_of_mem_calls hc with
    ⟨op, _, s, hs⟩
  rw [answer_of_mem_callsOf hs, declare_answer,
    ScopeTable.outcome] at hAnswer
  split at hAnswer
  · cases hAnswer
  · cases hAnswer
    exact ⟨s.tableOf c.scope, rfl⟩

/- The alias that a conflict names begins with its key. -/
theorem alias_of_mem_calls
    {r : Registry}
    {ops : List RegistryOp}
    {c : DeclareCall}
    {existing : Symbol}
    {storedAs : String}
    (hc : c ∈ r.calls ops)
    (hAnswer : c.answer = .conflict existing storedAs) :
    ∃ suffix, storedAs = c.key ++ ("_" ++ suffix) := by
  rcases freeAlias_of_mem_calls hc hAnswer with ⟨t, rfl⟩
  exact t.freeAlias_eq_append _ _

theorem Yields.stores
    {r : Registry}
    {calls : List DeclareCall}
    (h : initial.Yields calls r) :
    r.Stores calls := by
  rcases h with ⟨ops, rfl, rfl⟩
  exact stores_afterOps ops

end Registry

end ScopeAnalysis

------------------------------------------------------------
-- Taken Keys
------------------------------------------------------------

namespace ScopeAnalysis

namespace Registry

/- A key is taken once it was declared. -/
theorem lookup_declare_key
    (r : Registry)
    (scope : ScopeId)
    (key : String)
    (symbol : Symbol)
    (position : Position) :
    ∃ found,
      (r.declare scope key symbol position).2.lookup
          scope key =
        some found := by
  cases hAnswer :
      (r.declare scope key symbol position).1 with
  | declared =>
      refine ⟨symbol, ?_⟩
      have hPlace :=
        r.lookup_declare_place scope key symbol position
      rwa [hAnswer] at hPlace
  | conflict existing storedAs =>
      have hWithin :=
        r.within_afterOp
          (.declare scope key symbol position)
      exact ⟨existing,
        hWithin.symbols _ _ _
          (r.lookup_of_conflict _ _ _ _ hAnswer)⟩

/- The key of every declaration of a history is taken. -/
theorem bound_of_mem_calls
    {r : Registry}
    {ops : List RegistryOp}
    {c : DeclareCall}
    (hc : c ∈ r.calls ops) :
    ∃ found,
      (r.afterOps ops).lookup c.scope c.key = some found := by
  induction ops generalizing r with
  | nil => cases hc
  | cons op ops ih =>
      rw [calls] at hc
      rcases List.mem_append.mp hc with hFirst | hRest
      · have hDeclared :
            ∃ found,
              (r.afterOp op).lookup c.scope c.key =
                some found := by
          cases op with
          | enter id => cases hFirst
          | exit => cases hFirst
          | declare scope key symbol position =>
              rw [callsOf, List.mem_singleton] at hFirst
              rw [hFirst]
              exact r.lookup_declare_key _ _ _ _
          | declareHere key symbol position =>
              rw [callsOf, List.mem_singleton] at hFirst
              rw [hFirst]
              exact r.lookup_declare_key _ _ _ _
        rcases hDeclared with ⟨found, hFound⟩
        exact ⟨found,
          (within_afterOps _ ops).symbols _ _ _ hFound⟩
      · exact ih hRest

/-
  A key is taken exactly when it was declared or when it is
  the alias of a conflict.
-/
theorem Yields.taken_iff
    {r : Registry}
    {calls : List DeclareCall}
    (h : initial.Yields calls r)
    (scope : ScopeId)
    (key : String) :
    (∃ found, r.lookup scope key = some found) ↔
      ∃ c ∈ calls,
        c.scope = scope ∧
          (c.key = key ∨
            ∃ existing,
              c.answer = .conflict existing key) := by
  constructor
  · rintro ⟨found, hFound⟩
    rcases (h.stores.lookup_iff scope key found).mp hFound
      with ⟨c, hc, hPlace, _⟩
    simp only [DeclareCall.place, Prod.mk.injEq] at hPlace
    refine ⟨c, hc, hPlace.1, ?_⟩
    have hKey := hPlace.2
    cases hAnswer : c.answer with
    | declared =>
        rw [hAnswer] at hKey
        exact .inl hKey
    | conflict existing storedAs =>
        rw [hAnswer] at hKey
        rw [Declaration.place] at hKey
        rw [hKey]
        exact .inr ⟨existing, rfl⟩
  · rintro ⟨c, hc, rfl, hKey⟩
    rcases hKey with rfl | ⟨existing, hAnswer⟩
    · rcases h with ⟨ops, rfl, rfl⟩
      exact bound_of_mem_calls hc
    · refine ⟨c.symbol,
        (h.stores.lookup_iff _ _ _).mpr
          ⟨c, hc, ?_, rfl⟩⟩
      rw [DeclareCall.place, hAnswer, Declaration.place]

end Registry

end ScopeAnalysis
