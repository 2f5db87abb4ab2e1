import ScopeAnalysis.Proofs.RegistryHistory

/-
  Scopes along a history of a registry.

  Key definitions include:
    * `RegistryOp.named`
    * `Registry.Discovers`

  Key theorems include:
    * `Registry.Discovers.afterOps`
    * `Registry.mem_discoveryOrder_iff`

  A scope is discovered by the first use that names it, and
  nothing but a discovered scope is ever open.
-/

------------------------------------------------------------
-- Names In A History
------------------------------------------------------------

namespace ScopeAnalysis

namespace RegistryOp

/-
  The scope that a use names.  A declaration in the innermost
  open scope names none.
-/
def named : RegistryOp → List ScopeId
| .enter id => [id]
| .exit => []
| .declare scope _ _ _ => [scope]
| .declareHere _ _ _ => []

end RegistryOp

/- A further name counts when it has not occurred before. -/
theorem eraseDups_append_singleton
    {α : Type}
    [DecidableEq α]
    (xs : List α)
    (x : α) :
    (xs ++ [x]).eraseDups =
      if x ∈ xs.eraseDups then
        xs.eraseDups
      else
        xs.eraseDups ++ [x] := by
  rw [List.eraseDups_append]
  by_cases h : x ∈ xs
  · simp [List.removeAll, h]
  · simp [List.removeAll, List.eraseDups_cons, h]

end ScopeAnalysis

------------------------------------------------------------
-- Open Scopes
------------------------------------------------------------

namespace ScopeAnalysis

namespace Registry

theorem current_mem_openScopes
    (r : Registry) :
    r.current ∈ r.openScopes := by
  unfold current openScopes
  cases r.inner with
  | nil => simp
  | cons id outer => simp

/- Closing opens nothing. -/
theorem mem_openScopes_of_exit
    {r : Registry}
    {id : ScopeId}
    (h : id ∈ r.exit.2.openScopes) :
    id ∈ r.openScopes := by
  unfold exit at h
  split at h
  · exact h
  · rename_i closed outer hInner
    rw [openScopes, hInner, List.cons_append]
    exact List.mem_cons_of_mem _ h

end Registry

end ScopeAnalysis

------------------------------------------------------------
-- Order Of Discovery
------------------------------------------------------------

namespace ScopeAnalysis

namespace Registry

/-
  The scopes of a registry were discovered by names, each at
  its first occurrence, and all open ones are among them.
-/
structure Discovers
    (r : Registry)
    (names : List ScopeId) : Prop where
  order : r.discoveryOrder = names.eraseDups
  openScopes : ∀ id ∈ r.openScopes, id ∈ r.discoveryOrder

theorem Discovers.initial :
    Registry.initial.Discovers [.global] :=
  ⟨rfl, fun _ h => h⟩

/- Putting a table for a scope discovers its name. -/
theorem Discovers.order_put
    {r : Registry}
    {names : List ScopeId}
    (h : r.Discovers names)
    (inner : List ScopeId)
    (scope : ScopeId)
    (t : ScopeTable) :
    (Registry.mk (r.scopes.put scope t)
        inner).discoveryOrder =
      (names ++ [scope]).eraseDups := by
  rw [eraseDups_append_singleton, ← h.order]
  exact r.scopes.keys_put scope t

theorem mem_order_put_self
    (r : Registry)
    (inner : List ScopeId)
    (scope : ScopeId)
    (t : ScopeTable) :
    scope ∈
      (Registry.mk (r.scopes.put scope t)
        inner).discoveryOrder := by
  unfold discoveryOrder
  rw [OrderedMap.keys_put]
  split
  · assumption
  · simp

/- A declaration discovers its scope and opens nothing. -/
theorem Discovers.declare
    {r : Registry}
    {names : List ScopeId}
    (h : r.Discovers names)
    (scope : ScopeId)
    (key : String)
    (symbol : Symbol)
    (position : Position) :
    (r.declare scope key symbol position).2.Discovers
      (names ++ [scope]) := by
  refine ⟨h.order_put _ _ _, ?_⟩
  intro id hOpen
  exact (r.order_put _ _ _).subset (h.openScopes id hOpen)

/- Scopes are discovered by one use. -/
theorem Discovers.afterOp
    {r : Registry}
    {names : List ScopeId}
    (h : r.Discovers names)
    (op : RegistryOp) :
    (r.afterOp op).Discovers (names ++ op.named) := by
  cases op with
  | enter id =>
      refine ⟨h.order_put _ _ _, ?_⟩
      intro other hOpen
      rcases List.mem_cons.mp hOpen with rfl | hOld
      · exact r.mem_order_put_self _ _ _
      · exact (r.order_put _ _ _).subset
          (h.openScopes other hOld)
  | exit =>
      have hOrder :
          r.exit.2.discoveryOrder = r.discoveryOrder := by
        rw [discoveryOrder, scopes_exit]
        rfl
      rw [RegistryOp.named, List.append_nil, Registry.afterOp]
      refine ⟨hOrder.trans h.order, ?_⟩
      intro id hOpen
      rw [hOrder]
      exact h.openScopes id (mem_openScopes_of_exit hOpen)
  | declare scope key symbol position =>
      exact h.declare scope key symbol position
  | declareHere key symbol position =>
      -- The innermost open scope has been named before.
      have hDeclare :=
        h.declare r.current key symbol position
      have hKnown : r.current ∈ names.eraseDups := by
        rw [← h.order]
        exact h.openScopes _ r.current_mem_openScopes
      refine ⟨?_, hDeclare.openScopes⟩
      rw [RegistryOp.named, List.append_nil,
        Registry.afterOp, hDeclare.order,
        eraseDups_append_singleton, if_pos hKnown]

/- Scopes are discovered by a whole history. -/
theorem Discovers.afterOps
    {r : Registry}
    {names : List ScopeId}
    (h : r.Discovers names)
    (ops : List RegistryOp) :
    (r.afterOps ops).Discovers
      (names ++ ops.flatMap RegistryOp.named) := by
  induction ops generalizing r names with
  | nil =>
      rw [List.flatMap_nil, List.append_nil]
      exact h
  | cons op ops ih =>
      rw [List.flatMap_cons, ← List.append_assoc]
      exact ih (h.afterOp op)

/- A scope was discovered when it has a table. -/
theorem mem_discoveryOrder_iff
    (r : Registry)
    (id : ScopeId) :
    id ∈ r.discoveryOrder ↔ ∃ t, r.table? id = some t := by
  rw [← Option.isSome_iff_exists]
  exact (r.scopes.contains_iff id).symm

end Registry

end ScopeAnalysis
