import ScopeAnalysis.Proofs.Alias
import ScopeAnalysis.Registry

/-
  Histories of a registry.

  Key definitions include:
    * `RegistryOp`
    * `Registry.afterOp`
    * `Registry.afterOps`
    * `DeclareCall`
    * `DeclareCall.place`
    * `Registry.callsOf`
    * `Registry.calls`
    * `Registry.Within`

  Key theorems include:
    * `Registry.lookup_declare_place`
    * `Registry.lookup_declare_of_ne`
    * `Registry.within_afterOps`

  A registry changes in four ways only.  A history is any
  sequence of them, whether or not a program gives rise to
  it, and along a history a registry only ever grows.
-/

------------------------------------------------------------
-- Histories
------------------------------------------------------------

namespace ScopeAnalysis

/- One use of a registry. -/
inductive RegistryOp where
| enter (id : ScopeId)
| exit
| declare
    (scope : ScopeId)
    (key : String)
    (symbol : Symbol)
    (position : Position)
| declareHere
    (key : String)
    (symbol : Symbol)
    (position : Position)
deriving DecidableEq

/- A declaration with the answer that it got. -/
structure DeclareCall where
  scope : ScopeId
  key : String
  symbol : Symbol
  position : Position
  answer : Declaration
deriving DecidableEq

/- Where a declared symbol is stored. -/
def DeclareCall.place
    (c : DeclareCall) : ScopeId × String :=
  (c.scope, c.answer.place c.key)

namespace Registry

/- The registry after one use. -/
def afterOp
    (r : Registry) : RegistryOp → Registry
| .enter id => r.enter id
| .exit => r.exit.2
| .declare scope key symbol position =>
    (r.declare scope key symbol position).2
| .declareHere key symbol position =>
    (r.declare r.current key symbol position).2

/- The registry after a history. -/
def afterOps
    (r : Registry)
    (ops : List RegistryOp) : Registry :=
  ops.foldl afterOp r

/- A declaration as a registry answers it. -/
def callFor
    (r : Registry)
    (scope : ScopeId)
    (key : String)
    (symbol : Symbol)
    (position : Position) : DeclareCall where
  scope := scope
  key := key
  symbol := symbol
  position := position
  answer := (r.declare scope key symbol position).1

/- The declarations made by one use, at most one. -/
def callsOf
    (r : Registry) : RegistryOp → List DeclareCall
| .enter _ => []
| .exit => []
| .declare scope key symbol position =>
    [r.callFor scope key symbol position]
| .declareHere key symbol position =>
    [r.callFor r.current key symbol position]

/- The declarations made by a history, in order. -/
def calls
    (r : Registry) : List RegistryOp → List DeclareCall
| [] => []
| op :: ops => r.callsOf op ++ (r.afterOp op).calls ops

@[simp] theorem afterOps_nil
    (r : Registry) :
    r.afterOps [] = r :=
  rfl

@[simp] theorem afterOps_cons
    (r : Registry)
    (op : RegistryOp)
    (ops : List RegistryOp) :
    r.afterOps (op :: ops) = (r.afterOp op).afterOps ops :=
  rfl

theorem afterOps_append
    (r : Registry)
    (first second : List RegistryOp) :
    r.afterOps (first ++ second) =
      (r.afterOps first).afterOps second :=
  List.foldl_append

theorem calls_append
    (r : Registry)
    (first second : List RegistryOp) :
    r.calls (first ++ second) =
      r.calls first ++ (r.afterOps first).calls second := by
  induction first generalizing r with
  | nil => rfl
  | cons op ops ih =>
      simp only [List.cons_append, calls, ih,
        List.append_assoc, afterOps_cons]

end Registry

end ScopeAnalysis

------------------------------------------------------------
-- Tables And Look-Up
------------------------------------------------------------

namespace ScopeAnalysis

namespace Registry

/- The table that is put for a scope is its table. -/
theorem tableOf_put_self
    (scopes : OrderedMap ScopeId ScopeTable)
    (inner : List ScopeId)
    (scope : ScopeId)
    (t : ScopeTable) :
    (Registry.mk (scopes.put scope t) inner).tableOf scope =
      t := by
  simp [tableOf, table?, OrderedMap.get?_put_self]

/- All other scopes keep their tables. -/
theorem tableOf_put_of_ne
    (r : Registry)
    (inner : List ScopeId)
    {scope other : ScopeId}
    (t : ScopeTable)
    (h : other ≠ scope) :
    (Registry.mk (r.scopes.put scope t) inner).tableOf
        other =
      r.tableOf other := by
  simp [tableOf, table?, OrderedMap.get?_put_of_ne _ t h]

/- Opening a scope stores nothing. -/
@[simp] theorem tableOf_enter
    (r : Registry)
    (id other : ScopeId) :
    (r.enter id).tableOf other = r.tableOf other := by
  by_cases h : other = id
  · subst h
    exact tableOf_put_self _ _ _ _
  · exact tableOf_put_of_ne r _ _ h

/- Closing a scope keeps all tables. -/
@[simp] theorem scopes_exit
    (r : Registry) :
    r.exit.2.scopes = r.scopes := by
  unfold exit
  split <;> rfl

@[simp] theorem lookup_enter
    (r : Registry)
    (id scope : ScopeId)
    (key : String) :
    (r.enter id).lookup scope key = r.lookup scope key := by
  simp [lookup]

@[simp] theorem lookup_exit
    (r : Registry)
    (scope : ScopeId)
    (key : String) :
    r.exit.2.lookup scope key = r.lookup scope key := by
  simp [lookup, tableOf, table?]

/- A fresh registry has no symbols. -/
@[simp] theorem lookup_initial
    (scope : ScopeId)
    (key : String) :
    initial.lookup scope key = none := by
  by_cases h : scope = .global
  · subst h
    rfl
  · have hTable : initial.table? scope = none := by
      rw [table?, OrderedMap.get?_eq_none_iff]
      simpa [initial, OrderedMap.singleton,
        OrderedMap.keys] using h
    simp only [lookup, tableOf, hTable, Option.getD_none]
    rfl

end Registry

end ScopeAnalysis

------------------------------------------------------------
-- Declaring
------------------------------------------------------------

namespace ScopeAnalysis

namespace Registry

variable (r : Registry)
variable (scope : ScopeId)
variable (key : String)
variable (symbol : Symbol)
variable (position : Position)

/- A declaration is answered by the table of its scope. -/
theorem declare_answer :
    (r.declare scope key symbol position).1 =
      (r.tableOf scope).outcome key position :=
  rfl

/- A declaration changes the table of its scope. -/
theorem tableOf_declare_self :
    (r.declare scope key symbol position).2.tableOf scope =
      (r.tableOf scope).store key symbol position :=
  tableOf_put_self _ _ _ _

/- A declaration finds its place free. -/
theorem lookup_place :
    r.lookup scope
        ((r.declare scope key symbol position).1.place
          key) =
      none :=
  (r.tableOf scope).get?_place key position

/- A declared symbol is found at its place. -/
theorem lookup_declare_place :
    (r.declare scope key symbol position).2.lookup scope
        ((r.declare scope key symbol position).1.place
          key) =
      some symbol := by
  rw [lookup, tableOf_declare_self, declare_answer]
  exact ScopeTable.get?_store_place _ key symbol position

/- A declaration leaves all other places alone. -/
theorem lookup_declare_of_ne
    {other : ScopeId}
    {j : String}
    (h :
      (other, j) ≠
        (r.callFor scope key symbol position).place) :
    (r.declare scope key symbol position).2.lookup other j =
      r.lookup other j := by
  by_cases hScope : other = scope
  · subst hScope
    rw [lookup, tableOf_declare_self]
    apply ScopeTable.get?_store_of_ne
    intro hKey
    exact h (congrArg (Prod.mk other) hKey)
  · rw [lookup, lookup]
    exact congrArg
      (fun t : ScopeTable => t.get? j)
      (tableOf_put_of_ne r _ _ hScope)

/- A conflict names the symbol that has the key. -/
theorem lookup_of_conflict
    {existing : Symbol}
    {storedAs : String}
    (h :
      (r.declare scope key symbol position).1 =
        .conflict existing storedAs) :
    r.lookup scope key = some existing := by
  rw [declare_answer, ScopeTable.outcome] at h
  rw [lookup]
  split at h
  · cases h
  · rename_i hKey
    cases h
    exact hKey

/- A declaration is a conflict when the key has a symbol. -/
theorem conflict_iff :
    (∃ existing storedAs,
        (r.declare scope key symbol position).1 =
          .conflict existing storedAs) ↔
      ∃ existing, r.lookup scope key = some existing := by
  constructor
  · rintro ⟨existing, storedAs, h⟩
    exact ⟨existing, lookup_of_conflict _ _ _ _ _ h⟩
  · rintro ⟨existing, h⟩
    refine ⟨existing,
      (r.tableOf scope).freeAlias key position, ?_⟩
    rw [lookup] at h
    rw [declare_answer, ScopeTable.outcome, h]

end Registry

end ScopeAnalysis

------------------------------------------------------------
-- Growth
------------------------------------------------------------

namespace ScopeAnalysis

namespace Registry

/-
  One registry lies within another: its scopes were found
  first and in the same order, and the other one has all of
  its symbols at their places.
-/
structure Within (r s : Registry) : Prop where
  order : r.discoveryOrder <+: s.discoveryOrder
  symbols :
    ∀ scope key symbol,
      r.lookup scope key = some symbol →
        s.lookup scope key = some symbol

theorem Within.refl
    (r : Registry) :
    r.Within r :=
  ⟨List.prefix_refl _, fun _ _ _ h => h⟩

theorem Within.trans
    {r s t : Registry}
    (h₁ : r.Within s)
    (h₂ : s.Within t) :
    r.Within t :=
  ⟨h₁.order.trans h₂.order,
    fun scope key symbol h =>
      h₂.symbols scope key symbol
        (h₁.symbols scope key symbol h)⟩

/- Putting a table for a scope discovers at most one. -/
theorem order_put
    (r : Registry)
    (inner : List ScopeId)
    (scope : ScopeId)
    (t : ScopeTable) :
    r.discoveryOrder <+:
      (Registry.mk (r.scopes.put scope t)
        inner).discoveryOrder := by
  unfold discoveryOrder
  rw [OrderedMap.keys_put]
  split
  · exact List.prefix_refl _
  · exact List.prefix_append _ _

/- A registry lies within what any use makes of it. -/
theorem within_afterOp
    (r : Registry)
    (op : RegistryOp) :
    r.Within (r.afterOp op) := by
  -- A place that has a symbol is not that of a new one.
  have hDeclare :
      ∀ scope key symbol position,
        r.Within
          (r.declare scope key symbol position).2 := by
    intro scope key symbol position
    refine ⟨order_put r _ _ _, ?_⟩
    intro other j existing hFound
    rw [lookup_declare_of_ne]
    · exact hFound
    · intro hPlace
      have hFree :=
        r.lookup_place scope key symbol position
      simp only [DeclareCall.place, callFor,
        Prod.mk.injEq] at hPlace
      obtain ⟨rfl, rfl⟩ := hPlace
      rw [hFree] at hFound
      cases hFound
  cases op with
  | enter id =>
      refine ⟨order_put r _ _ _, ?_⟩
      intro scope key symbol hFound
      rw [afterOp, lookup_enter]
      exact hFound
  | exit =>
      refine ⟨?_, ?_⟩
      · simp only [afterOp, discoveryOrder, scopes_exit,
          List.prefix_rfl]
      · intro scope key symbol hFound
        rw [afterOp, lookup_exit]
        exact hFound
  | declare scope key symbol position =>
      exact hDeclare scope key symbol position
  | declareHere key symbol position =>
      exact hDeclare r.current key symbol position

/- A registry lies within what any history makes of it. -/
theorem within_afterOps
    (r : Registry)
    (ops : List RegistryOp) :
    r.Within (r.afterOps ops) := by
  induction ops generalizing r with
  | nil => exact Within.refl r
  | cons op ops ih =>
      exact (r.within_afterOp op).trans
        (ih (r.afterOp op))

end Registry

end ScopeAnalysis
