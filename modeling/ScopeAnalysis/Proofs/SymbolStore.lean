import ScopeAnalysis.Proofs.RegistryHistory

/-
  What a registry stores along a history.

  Key definitions include:
    * `Registry.symbolCount`
    * `Registry.Stores`
    * `Registry.KeepsEverything`

  Key theorems include:
    * `Registry.Stores.afterOps`
    * `Registry.keepsEverything`

  A registry stores exactly the symbols that were declared,
  each at a place of its own.  Places of aliases are places
  like all others, so a key that looks like an alias can be
  taken without ever having been declared.
-/

------------------------------------------------------------
-- Counting Symbols
------------------------------------------------------------

namespace ScopeAnalysis

/- What putting a value does to a list made of all values. -/
theorem Entries.length_flatMap_put
    {κ α β : Type}
    [DecidableEq κ]
    (f : α → List β)
    (k : κ)
    (v : α)
    (es : List (κ × α)) :
    ((put k v es).flatMap fun e => f e.2).length +
        (((es.lookup k).map f).getD []).length =
      (es.flatMap fun e => f e.2).length +
        (f v).length := by
  induction es with
  | nil => simp [put]
  | cons e es ih =>
      by_cases h : e.1 = k
      · have hLookup : (e :: es).lookup k = some e.2 := by
          rw [List.lookup_cons, beq_iff_eq.mpr h.symm]
        simp only [put, if_pos h, hLookup,
          List.flatMap_cons, List.length_append,
          Option.map_some, Option.getD_some]
        omega
      · have hk : (k == e.1) = false := by
          simp [beq_eq_false_iff_ne, Ne.symm h]
        have hLookup :
            (e :: es).lookup k = es.lookup k := by
          rw [List.lookup_cons, hk]
        simp only [put, if_neg h, hLookup,
          List.flatMap_cons, List.length_append]
        omega

/- A value at a new key is one more entry. -/
theorem OrderedMap.size_put_of_new
    {κ α : Type}
    [DecidableEq κ]
    (m : OrderedMap κ α)
    {k : κ}
    (v : α)
    (h : m.get? k = none) :
    (m.put k v).size = m.size + 1 := by
  have hKeys := m.keys_put k v
  rw [if_neg ((m.get?_eq_none_iff k).mp h)] at hKeys
  have hLength := congrArg List.length hKeys
  simpa [OrderedMap.keys, OrderedMap.size] using hLength

namespace Registry

/- The number of symbols in all tables together. -/
def symbolCount (r : Registry) : Nat :=
  (r.scopes.entries.flatMap fun e => e.2.entries).length

/- A new table for a scope counts in place of the old. -/
theorem symbolCount_put
    (r : Registry)
    (inner : List ScopeId)
    (scope : ScopeId)
    (t : ScopeTable) :
    (Registry.mk (r.scopes.put scope t) inner).symbolCount +
        (r.tableOf scope).size =
      r.symbolCount + t.size := by
  have hLength :=
    Entries.length_flatMap_put OrderedMap.entries scope t
      r.scopes.entries
  have hOld :
      (r.tableOf scope).size =
        (((r.scopes.entries.lookup scope).map
          OrderedMap.entries).getD []).length := by
    unfold tableOf table? OrderedMap.get?
    cases r.scopes.entries.lookup scope <;> rfl
  rw [hOld]
  exact hLength

@[simp] theorem symbolCount_enter
    (r : Registry)
    (id : ScopeId) :
    (r.enter id).symbolCount = r.symbolCount := by
  have hCount :=
    r.symbolCount_put (id :: r.inner) id (r.tableOf id)
  simp only [enter]
  omega

@[simp] theorem symbolCount_exit
    (r : Registry) :
    r.exit.2.symbolCount = r.symbolCount := by
  simp [symbolCount]

/- Every declaration brings one symbol. -/
theorem symbolCount_declare
    (r : Registry)
    (scope : ScopeId)
    (key : String)
    (symbol : Symbol)
    (position : Position) :
    (r.declare scope key symbol position).2.symbolCount =
      r.symbolCount + 1 := by
  have hSize :
      ((r.tableOf scope).store key symbol position).size =
        (r.tableOf scope).size + 1 :=
    OrderedMap.size_put_of_new _ symbol
      ((r.tableOf scope).get?_place key position)
  have hCount :=
    r.symbolCount_put r.inner scope
      ((r.tableOf scope).store key symbol position)
  simp only [declare]
  omega

end Registry

end ScopeAnalysis

------------------------------------------------------------
-- The Invariant
------------------------------------------------------------

namespace ScopeAnalysis

namespace Registry

/- A registry stores what was declared, and nothing else. -/
structure Stores
    (r : Registry)
    (calls : List DeclareCall) : Prop where
  places_nodup : (calls.map DeclareCall.place).Nodup
  lookup_iff :
    ∀ scope key symbol,
      r.lookup scope key = some symbol ↔
        ∃ c ∈ calls,
          c.place = (scope, key) ∧ c.symbol = symbol
  count : r.symbolCount = calls.length

theorem Stores.initial :
    Registry.initial.Stores [] where
  places_nodup := List.nodup_nil
  lookup_iff := by simp
  count := rfl

/- A registry with the same symbols stores the same calls. -/
theorem Stores.congr
    {r s : Registry}
    {calls : List DeclareCall}
    (hStores : r.Stores calls)
    (hLookup :
      ∀ scope key, s.lookup scope key = r.lookup scope key)
    (hCount : s.symbolCount = r.symbolCount) :
    s.Stores calls where
  places_nodup := hStores.places_nodup
  lookup_iff := by
    intro scope key symbol
    rw [hLookup, hStores.lookup_iff]
  count := by rw [hCount, hStores.count]

/- A declaration is stored beside those before it. -/
theorem Stores.declare
    {r : Registry}
    {calls : List DeclareCall}
    (hStores : r.Stores calls)
    (scope : ScopeId)
    (key : String)
    (symbol : Symbol)
    (position : Position) :
    (r.declare scope key symbol position).2.Stores
      (calls ++
        [r.callFor scope key symbol position]) := by
  have hFree := r.lookup_place scope key symbol position
  have hPlace :
      ∀ c ∈ calls,
        c.place ≠
          (r.callFor scope key symbol position).place := by
    intro c hc hEq
    have hFound :=
      (hStores.lookup_iff _ _ c.symbol).mpr
        ⟨c, hc, hEq, rfl⟩
    rw [callFor, hFree] at hFound
    cases hFound
  refine ⟨?_, ?_, ?_⟩
  · rw [List.map_append, List.nodup_append]
    refine ⟨hStores.places_nodup, by simp, ?_⟩
    intro place hOld other hNew
    rcases List.mem_map.mp hOld with ⟨c, hc, rfl⟩
    rw [List.map_singleton, List.mem_singleton] at hNew
    rw [hNew]
    exact hPlace c hc
  · intro other j found
    by_cases hHere :
        (other, j) =
          (r.callFor scope key symbol position).place
    · have hNew :
          (r.declare scope key symbol position).2.lookup
              other j =
            some symbol := by
        rw [Prod.mk.injEq] at hHere
        rw [hHere.1, hHere.2]
        exact r.lookup_declare_place scope key symbol
          position
      rw [hNew]
      constructor
      · intro hSymbol
        exact ⟨_, by simp, hHere.symm,
          Option.some.inj hSymbol⟩
      · rintro ⟨c, hc, hEq, rfl⟩
        rcases List.mem_append.mp hc with hOld | hLast
        · exact (hPlace c hOld (hEq.trans hHere)).elim
        · rw [List.mem_singleton] at hLast
          rw [hLast]
          rfl
    · rw [r.lookup_declare_of_ne scope key symbol position
        hHere, hStores.lookup_iff]
      constructor
      · rintro ⟨c, hc, hEq, hSymbol⟩
        exact ⟨c, by simp [hc], hEq, hSymbol⟩
      · rintro ⟨c, hc, hEq, hSymbol⟩
        rcases List.mem_append.mp hc with hOld | hLast
        · exact ⟨c, hOld, hEq, hSymbol⟩
        · rw [List.mem_singleton] at hLast
          rw [hLast] at hEq
          exact (hHere hEq.symm).elim
  · rw [symbolCount_declare, hStores.count]
    simp

/- The invariant lasts for one use. -/
theorem Stores.afterOp
    {r : Registry}
    {calls : List DeclareCall}
    (hStores : r.Stores calls)
    (op : RegistryOp) :
    (r.afterOp op).Stores (calls ++ r.callsOf op) := by
  cases op with
  | enter id =>
      rw [callsOf, List.append_nil]
      exact hStores.congr
        (fun scope key => r.lookup_enter id scope key)
        (r.symbolCount_enter id)
  | exit =>
      rw [callsOf, List.append_nil]
      exact hStores.congr r.lookup_exit r.symbolCount_exit
  | declare scope key symbol position =>
      exact hStores.declare scope key symbol position
  | declareHere key symbol position =>
      exact hStores.declare r.current key symbol position

/- The invariant lasts for a whole history. -/
theorem Stores.afterOps
    {r : Registry}
    {calls : List DeclareCall}
    (hStores : r.Stores calls)
    (ops : List RegistryOp) :
    (r.afterOps ops).Stores (calls ++ r.calls ops) := by
  induction ops generalizing r calls with
  | nil =>
      rw [Registry.calls, List.append_nil]
      exact hStores
  | cons op ops ih =>
      rw [Registry.calls, ← List.append_assoc]
      exact ih (hStores.afterOp op)

/- Every history from the start meets the invariant. -/
theorem stores_afterOps
    (ops : List RegistryOp) :
    (initial.afterOps ops).Stores (initial.calls ops) := by
  have h := Stores.initial.afterOps ops
  rwa [List.nil_append] at h

end Registry

end ScopeAnalysis

------------------------------------------------------------
-- Nothing Is Lost
------------------------------------------------------------

namespace ScopeAnalysis

namespace Registry

/-
  What a history leaves behind.  No two declarations share a
  place, each symbol is found at its place, and there are no
  others.  A declaration is a conflict exactly when its key
  was the place of an earlier one, and the symbol that had
  the key keeps it.
-/
structure KeepsEverything
    (ops : List RegistryOp) : Prop where
  places_differ :
    ((initial.calls ops).map DeclareCall.place).Nodup
  symbols_found :
    ∀ c ∈ initial.calls ops,
      (initial.afterOps ops).lookup c.place.1 c.place.2 =
        some c.symbol
  symbols_counted :
    (initial.afterOps ops).symbolCount =
      (initial.calls ops).length
  conflict_iff :
    ∀ before op after,
      ops = before ++ op :: after →
        ∀ c ∈ (initial.afterOps before).callsOf op,
          (∃ existing storedAs,
              c.answer = .conflict existing storedAs) ↔
            ∃ b ∈ initial.calls before,
              b.place = (c.scope, c.key)
  existing_kept :
    ∀ before op after,
      ops = before ++ op :: after →
        ∀ c ∈ (initial.afterOps before).callsOf op,
          ∀ existing storedAs,
            c.answer = .conflict existing storedAs →
              (∃ b ∈ initial.calls before,
                b.place = (c.scope, c.key) ∧
                  b.symbol = existing) ∧
              (initial.afterOps before).lookup
                  c.scope c.key =
                some existing ∧
              (initial.afterOps (before ++ [op])).lookup
                  c.scope c.key =
                some existing ∧
              (initial.afterOps ops).lookup c.scope c.key =
                some existing

/- The call of a use is answered by the registry. -/
theorem answer_of_mem_callsOf
    {r : Registry}
    {op : RegistryOp}
    {c : DeclareCall}
    (hc : c ∈ r.callsOf op) :
    c.answer =
      (r.declare c.scope c.key c.symbol c.position).1 := by
  cases op with
  | enter id => cases hc
  | exit => cases hc
  | declare scope key symbol position =>
      rw [callsOf, List.mem_singleton] at hc
      rw [hc]
      rfl
  | declareHere key symbol position =>
      rw [callsOf, List.mem_singleton] at hc
      rw [hc]
      rfl

/- No history loses or overwrites a symbol. -/
theorem keepsEverything
    (ops : List RegistryOp) :
    KeepsEverything ops := by
  have hStores := stores_afterOps ops
  refine
    ⟨hStores.places_nodup, ?_, hStores.count, ?_, ?_⟩
  · intro c hc
    exact (hStores.lookup_iff _ _ _).mpr
      ⟨c, hc, rfl, rfl⟩
  · intro before op after _ c hc
    rw [answer_of_mem_callsOf hc, Registry.conflict_iff]
    constructor
    · rintro ⟨existing, hFound⟩
      rcases ((stores_afterOps before).lookup_iff _ _ _).mp
          hFound with
        ⟨b, hb, hPlace, _⟩
      exact ⟨b, hb, hPlace⟩
    · rintro ⟨b, hb, hPlace⟩
      exact ⟨b.symbol,
        ((stores_afterOps before).lookup_iff _ _ _).mpr
          ⟨b, hb, hPlace, rfl⟩⟩
  · intro before op after hOps c hc existing storedAs hAnswer
    rw [answer_of_mem_callsOf hc] at hAnswer
    have hFound := lookup_of_conflict _ _ _ _ _ hAnswer
    have hOp :
        (initial.afterOps (before ++ [op])).lookup
            c.scope c.key =
          some existing := by
      rw [afterOps_append]
      exact (within_afterOps _ [op]).symbols _ _ _ hFound
    refine
      ⟨((stores_afterOps before).lookup_iff _ _ _).mp
          hFound,
        hFound, hOp, ?_⟩
    rw [hOps, afterOps_append]
    exact (within_afterOps _ (op :: after)).symbols _ _ _
      hFound

end Registry

end ScopeAnalysis
