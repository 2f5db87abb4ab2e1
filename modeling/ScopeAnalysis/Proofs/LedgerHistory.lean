import ScopeAnalysis.Proofs.Discovery
import ScopeAnalysis.ScopeLedger

/-
  Histories of a ledger.

  Key definitions include:
    * `RegistryOp.depthAfter`
    * `ScopeLedger.afterOp`
    * `ScopeLedger.afterOps`
    * `ScopeLedger.Agrees`
    * `ScopeLedger.Mirrors`
    * `ScopeLedger.AnswersLike`
    * `ScopeLedger.KeepsScopes`

  Key theorems include:
    * `ScopeLedger.Agrees.afterOps`
    * `ScopeLedger.Mirrors.afterOps`
    * `ScopeLedger.Mirrors.answersLike`
    * `ScopeLedger.keepsScopes`

  The three books of a ledger agree along every history: a
  scope is discovered by the first use that names it, it has
  a table from then on, and nothing but a discovered scope is
  ever open.  A registry, which puts the books into one, is
  the same to whoever uses it.
-/

------------------------------------------------------------
-- Histories
------------------------------------------------------------

namespace ScopeAnalysis

/- The number of open scopes after a use, at least one. -/
def RegistryOp.depthAfter
    (depth : Nat) : RegistryOp → Nat
| .enter _ => depth + 1
| .exit => max 1 (depth - 1)
| .declare _ _ _ _ => depth
| .declareHere _ _ _ => depth

namespace ScopeLedger

/- The ledger after one use, if that has a scope to go to. -/
def afterOp
    (l : ScopeLedger) : RegistryOp → Option ScopeLedger
| .enter id => some (l.enter id)
| .exit => some l.exit.2
| .declare scope key symbol position =>
    some (l.declare scope key symbol position).2
| .declareHere key symbol position =>
    (l.declareHere key symbol position).map Prod.snd

/- The ledger after a history. -/
def afterOps
    (l : ScopeLedger)
    (ops : List RegistryOp) : Option ScopeLedger :=
  ops.foldlM afterOp l

theorem afterOps_cons
    {l m : ScopeLedger}
    {op : RegistryOp}
    (h : l.afterOp op = some m)
    (ops : List RegistryOp) :
    l.afterOps (op :: ops) = m.afterOps ops := by
  rw [afterOps, List.foldlM_cons, h]
  rfl

theorem afterOps_append
    {l m : ScopeLedger}
    {first : List RegistryOp}
    (h : l.afterOps first = some m)
    (second : List RegistryOp) :
    l.afterOps (first ++ second) = m.afterOps second := by
  rw [afterOps] at h
  rw [afterOps, List.foldlM_append, h]
  rfl

end ScopeLedger

end ScopeAnalysis

------------------------------------------------------------
-- Tables And Order
------------------------------------------------------------

namespace ScopeAnalysis

namespace ScopeLedger

variable (l : ScopeLedger)
variable (id : ScopeId)

/- Making sure of a table opens no scope. -/
@[simp] theorem stack_ensureTable :
    (l.ensureTable id).stack = l.stack := by
  unfold ensureTable
  split <;> rfl

theorem order_ensureTable :
    (l.ensureTable id).order =
      if id ∈ l.tables then
        l.order
      else
        l.order ++ [id] := by
  unfold ensureTable
  split <;> rfl

/- The scope has a table, empty if it had none before. -/
theorem lookup_ensureTable_self :
    (l.ensureTable id).tables.lookup id =
      some ((l.tables.lookup id).getD .empty) := by
  unfold ensureTable
  split
  · rename_i hKnown
    rcases Finmap.mem_iff.mp hKnown with ⟨t, ht⟩
    rw [ht, Option.getD_some]
  · rename_i hNew
    rw [Finmap.lookup_insert,
      Finmap.lookup_eq_none.mpr hNew, Option.getD_none]

/- All other scopes keep their tables. -/
theorem lookup_ensureTable_of_ne
    {other : ScopeId}
    (h : other ≠ id) :
    (l.ensureTable id).tables.lookup other =
      l.tables.lookup other := by
  unfold ensureTable
  split
  · rfl
  · exact Finmap.lookup_insert_of_ne _ h

theorem mem_tables_ensureTable
    (other : ScopeId) :
    other ∈ (l.ensureTable id).tables ↔
      other = id ∨ other ∈ l.tables := by
  unfold ensureTable
  split
  · rename_i hKnown
    constructor
    · exact Or.inr
    · rintro (rfl | hOther)
      · exact hKnown
      · exact hOther
  · exact Finmap.mem_insert

/- Declaring stores into the table of one scope. -/
theorem declare_eq
    (key : String)
    (symbol : Symbol)
    (position : Position) :
    l.declare id key symbol position =
      ( ((l.tables.lookup id).getD .empty).outcome
          key position,
        { l.ensureTable id with
          tables :=
            (l.ensureTable id).tables.insert id
              (((l.tables.lookup id).getD .empty).store
                key symbol position) } ) := by
  rw [declare]
  simp only [lookup_ensureTable_self, Option.getD_some,
    ScopeTable.declare_eq]

theorem stack_declare
    (key : String)
    (symbol : Symbol)
    (position : Position) :
    (l.declare id key symbol position).2.stack = l.stack := by
  rw [declare_eq]
  exact l.stack_ensureTable id

end ScopeLedger

end ScopeAnalysis

------------------------------------------------------------
-- Agreement
------------------------------------------------------------

namespace ScopeAnalysis

namespace ScopeLedger

/-
  The books of a ledger agree, and its scopes were discovered
  by names, each at its first occurrence.
-/
structure Agrees
    (l : ScopeLedger)
    (names : List ScopeId) : Prop where
  order : l.order = names.eraseDups
  nodup : l.order.Nodup
  tables : ∀ id, id ∈ l.order ↔ id ∈ l.tables
  bottom : l.stack.head? = some .global
  open_known : ∀ id ∈ l.stack, id ∈ l.order

theorem agrees_initial :
    initial.Agrees [.global] where
  order := rfl
  nodup := List.nodup_singleton _
  tables := by simp [initial]
  bottom := rfl
  open_known := fun _ h => h

variable {l : ScopeLedger}
variable {names : List ScopeId}

theorem Agrees.stack_ne_nil
    (h : l.Agrees names) :
    l.stack ≠ [] := by
  intro hNone
  have hBottom := h.bottom
  rw [hNone] at hBottom
  cases hBottom

/- Some scope is open, and it was discovered. -/
theorem Agrees.exists_current
    (h : l.Agrees names) :
    ∃ scope ∈ l.order, l.current? = some scope :=
  ⟨l.stack.getLast h.stack_ne_nil,
    h.open_known _ (List.getLast_mem h.stack_ne_nil),
    List.getLast?_eq_some_getLast h.stack_ne_nil⟩

/- Making sure of a table discovers the scope. -/
theorem Agrees.ensureTable
    (h : l.Agrees names)
    (id : ScopeId) :
    (l.ensureTable id).Agrees (names ++ [id]) := by
  have hNames := eraseDups_append_singleton names id
  rw [← h.order] at hNames
  by_cases hKnown : id ∈ l.tables
  · rw [if_pos ((h.tables id).mpr hKnown)] at hNames
    rw [ScopeLedger.ensureTable, if_pos hKnown]
    exact
      ⟨hNames.symm, h.nodup, h.tables, h.bottom,
        h.open_known⟩
  · have hNew : id ∉ l.order := fun hOld =>
      hKnown ((h.tables id).mp hOld)
    rw [if_neg hNew] at hNames
    have hOrder :
        (l.ensureTable id).order = l.order ++ [id] := by
      rw [order_ensureTable, if_neg hKnown]
    refine
      { order := hOrder.trans hNames.symm
        nodup := ?_
        tables := ?_
        bottom := ?_
        open_known := ?_ }
    · rw [hOrder]
      exact List.nodup_append_comm.mp
        (List.nodup_cons.mpr ⟨hNew, h.nodup⟩)
    · intro other
      rw [hOrder, mem_tables_ensureTable, ← h.tables,
        List.mem_append, List.mem_singleton, or_comm]
    · rw [stack_ensureTable]
      exact h.bottom
    · intro other hOther
      rw [stack_ensureTable] at hOther
      rw [hOrder]
      exact List.mem_append_left _ (h.open_known _ hOther)

/- So does a declaration, which opens nothing. -/
theorem Agrees.declare
    (h : l.Agrees names)
    (scope : ScopeId)
    (key : String)
    (symbol : Symbol)
    (position : Position) :
    (l.declare scope key symbol position).2.Agrees
      (names ++ [scope]) := by
  have hKnown := h.ensureTable scope
  rw [declare_eq]
  refine
    { hKnown with
      tables := ?_ }
  intro id
  rw [hKnown.tables, Finmap.mem_insert,
    mem_tables_ensureTable]
  tauto

theorem Agrees.enter
    (h : l.Agrees names)
    (id : ScopeId) :
    (l.enter id).Agrees (names ++ [id]) := by
  have hKnown := h.ensureTable id
  refine
    { hKnown with
      bottom := ?_
      open_known := ?_ }
  · rw [ScopeLedger.enter, List.head?_append, hKnown.bottom]
    rfl
  · intro other hOther
    rcases List.mem_append.mp hOther with hOld | hNew
    · exact hKnown.open_known other hOld
    · rw [List.mem_singleton.mp hNew]
      exact
        (hKnown.tables id).mpr
          ((l.mem_tables_ensureTable id id).mpr (.inl rfl))

/- What is closed is never the scope at the bottom. -/
theorem Agrees.exit
    (h : l.Agrees names) :
    l.exit.2.Agrees names := by
  unfold ScopeLedger.exit
  split
  · rename_i hDeep
    refine
      { h with
        bottom := ?_
        open_known := ?_ }
    · rw [List.head?_dropLast, if_pos hDeep]
      exact h.bottom
    · intro id hOpen
      exact h.open_known id (List.dropLast_subset _ hOpen)
  · exact h

/- A declaration here names no scope: it was named before. -/
theorem Agrees.declareHere
    (h : l.Agrees names)
    (key : String)
    (symbol : Symbol)
    (position : Position) :
    ∃ answer later,
      l.declareHere key symbol position =
          some (answer, later) ∧
        later.Agrees names ∧
          later.stack = l.stack := by
  rcases h.exists_current with ⟨scope, hScope, hCurrent⟩
  have hDeclared := h.declare scope key symbol position
  have hNames :
      (names ++ [scope]).eraseDups = names.eraseDups := by
    rw [h.order] at hScope
    rw [eraseDups_append_singleton, if_pos hScope]
  refine
    ⟨(l.declare scope key symbol position).1,
      (l.declare scope key symbol position).2, ?_, ?_,
      l.stack_declare scope key symbol position⟩
  · rw [ScopeLedger.declareHere, hCurrent]
    rfl
  · exact
      { hDeclared with
        order := hDeclared.order.trans hNames }

/-
  One use finds the scope it needs, keeps the books in
  agreement and counts the open scopes.
-/
theorem Agrees.afterOp
    (h : l.Agrees names)
    (op : RegistryOp) :
    ∃ later,
      l.afterOp op = some later ∧
        later.Agrees (names ++ op.named) ∧
          later.depth = op.depthAfter l.depth := by
  cases op with
  | enter id =>
      refine ⟨l.enter id, rfl, h.enter id, ?_⟩
      simp [ScopeLedger.enter, depth, RegistryOp.depthAfter]
  | exit =>
      refine ⟨l.exit.2, rfl, ?_, ?_⟩
      · rw [RegistryOp.named, List.append_nil]
        exact h.exit
      · have hOpen := List.length_pos_iff.mpr h.stack_ne_nil
        change _ = max 1 (l.stack.length - 1)
        unfold ScopeLedger.exit depth
        split
        · rw [List.length_dropLast]
          omega
        · change l.stack.length = _
          omega
  | declare scope key symbol position =>
      exact
        ⟨_, rfl, h.declare scope key symbol position,
          congrArg List.length
            (l.stack_declare scope key symbol position)⟩
  | declareHere key symbol position =>
      rcases h.declareHere key symbol position with
        ⟨answer, later, hDeclared, hAgrees, hStack⟩
      refine ⟨later, ?_, ?_, congrArg List.length hStack⟩
      · rw [ScopeLedger.afterOp, hDeclared]
        rfl
      · rw [RegistryOp.named, List.append_nil]
        exact hAgrees

/- So does a whole history. -/
theorem Agrees.afterOps
    (h : l.Agrees names)
    (ops : List RegistryOp) :
    ∃ later,
      l.afterOps ops = some later ∧
        later.Agrees
            (names ++ ops.flatMap RegistryOp.named) ∧
          later.depth =
            ops.foldl RegistryOp.depthAfter l.depth := by
  induction ops generalizing l names with
  | nil =>
      refine ⟨l, rfl, ?_, rfl⟩
      rw [List.flatMap_nil, List.append_nil]
      exact h
  | cons op ops ih =>
      rcases h.afterOp op with
        ⟨next, hNext, hAgrees, hDepth⟩
      rcases ih hAgrees with
        ⟨later, hLater, hAgreesLater, hDepthLater⟩
      refine ⟨later, ?_, ?_, ?_⟩
      · rw [afterOps_cons hNext]
        exact hLater
      · rw [List.flatMap_cons, ← List.append_assoc]
        exact hAgreesLater
      · rw [List.foldl_cons, ← hDepth]
        exact hDepthLater

/- Further names leave the order of the first ones alone. -/
theorem Agrees.order_prefix
    {later : ScopeLedger}
    {more : List ScopeId}
    (h : l.Agrees names)
    (hLater : later.Agrees (names ++ more)) :
    l.order <+: later.order := by
  rw [h.order, hLater.order, List.eraseDups_append]
  exact List.prefix_append _ _

/- No scope is passed over. -/
theorem Agrees.map_fst_scopes
    (h : l.Agrees names) :
    l.scopes.map Prod.fst = l.order := by
  rw [scopes, List.map_filterMap]
  calc
    l.order.filterMap
          (fun id =>
            ((l.tables.lookup id).map fun t => (id, t)).map
              Prod.fst)
        = l.order.filterMap some := by
          apply List.filterMap_congr
          intro id hId
          rcases Finmap.mem_iff.mp ((h.tables id).mp hId) with
            ⟨t, ht⟩
          rw [ht]
          rfl
    _ = l.order := List.filterMap_some

end ScopeLedger

end ScopeAnalysis

------------------------------------------------------------
-- Closing
------------------------------------------------------------

namespace ScopeAnalysis

namespace ScopeLedger

variable {l : ScopeLedger}
variable {names : List ScopeId}

/- Closing does nothing when only one scope is open. -/
theorem Agrees.exit_none_iff
    (h : l.Agrees names) :
    l.exit.1 = none ↔ l.depth = 1 := by
  rcases List.head?_eq_some_iff.mp h.bottom with
    ⟨inner, hStack⟩
  cases inner with
  | nil => simp [ScopeLedger.exit, depth, hStack]
  | cons id inner =>
      simp [ScopeLedger.exit, depth, hStack]

theorem exit_of_none
    (h : l.exit.1 = none) :
    l.exit.2 = l := by
  unfold exit at h ⊢
  split
  · rename_i hDeep
    rw [if_pos hDeep, List.getLast?_eq_none_iff] at h
    rw [h] at hDeep
    cases hDeep
  · rfl

/- What is closed is the innermost scope, and nothing else. -/
theorem eq_of_exit
    {id : ScopeId}
    (h : l.exit.1 = some id) :
    l =
      { l.exit.2 with
        stack := l.exit.2.stack ++ [id] } := by
  unfold exit at h ⊢
  split
  · rename_i hDeep
    rw [if_pos hDeep] at h
    rw [List.dropLast_append_getLast? id h]
  · rename_i hShallow
    rw [if_neg hShallow] at h
    cases h

end ScopeLedger

end ScopeAnalysis

------------------------------------------------------------
-- Registries
------------------------------------------------------------

namespace ScopeAnalysis

/- The entries of a map are its keys with their values. -/
theorem OrderedMap.filterMap_keys
    {κ α : Type}
    [DecidableEq κ]
    (m : OrderedMap κ α) :
    (m.keys.filterMap fun k =>
        (m.get? k).map fun v => (k, v)) =
      m.entries := by
  rw [keys, List.filterMap_map]
  calc
    m.entries.filterMap
          ((fun k => (m.get? k).map fun v => (k, v)) ∘
            Prod.fst)
        = m.entries.filterMap some := by
          apply List.filterMap_congr
          intro e he
          have hValue : m.get? e.1 = some e.2 :=
            Entries.lookup_of_mem m.nodup_keys he
          rw [Function.comp_apply, hValue, Option.map_some]
    _ = m.entries := List.filterMap_some

namespace ScopeLedger

/- A registry holds what the three books of a ledger hold. -/
structure Mirrors
    (l : ScopeLedger)
    (r : Registry) : Prop where
  order : l.order = r.discoveryOrder
  tables : ∀ id, l.tables.lookup id = r.table? id
  stack : l.stack = r.openScopes.reverse

/- Nothing that is asked or done tells the two apart. -/
structure AnswersLike
    (l : ScopeLedger)
    (r : Registry) : Prop where
  current : l.current? = some r.current
  depth : l.depth = r.depth
  lookup :
    ∀ scope key, l.lookup scope key = r.lookup scope key
  resolve : ∀ key, l.resolve key = r.resolve key
  scopes : l.scopes = r.scopes.entries
  exit : l.exit.1 = r.exit.1
  declare :
    ∀ scope key symbol position,
      (l.declare scope key symbol position).1 =
        (r.declare scope key symbol position).1

theorem mirrors_initial :
    initial.Mirrors .initial where
  order := rfl
  tables := by
    intro id
    by_cases h : id = .global
    · subst h
      rfl
    · have hOther : id ∉ initial.tables := by
        simp [initial, h]
      rw [Finmap.lookup_eq_none.mpr hOther]
      symm
      rw [Registry.table?, OrderedMap.get?_eq_none_iff]
      simpa [Registry.initial, OrderedMap.singleton,
        OrderedMap.keys] using h
  stack := rfl

variable {l : ScopeLedger}
variable {r : Registry}

theorem Mirrors.getD_lookup
    (h : l.Mirrors r)
    (id : ScopeId) :
    (l.tables.lookup id).getD .empty = r.tableOf id := by
  rw [h.tables]
  rfl

/- Making sure of a table notes what putting one notes. -/
theorem Mirrors.order_ensureTable
    (h : l.Mirrors r)
    (id : ScopeId)
    (t : ScopeTable) :
    (l.ensureTable id).order = (r.scopes.put id t).keys := by
  have hKnown : id ∈ l.tables ↔ id ∈ r.scopes.keys := by
    rw [Finmap.mem_iff, h.tables]
    exact (r.mem_discoveryOrder_iff id).symm
  rw [ScopeLedger.order_ensureTable, OrderedMap.keys_put,
    h.order]
  by_cases hId : id ∈ l.tables
  · rw [if_pos hId, if_pos (hKnown.mp hId)]
    rfl
  · rw [if_neg hId, if_neg (hKnown.not.mp hId)]
    rfl

theorem Mirrors.enter
    (h : l.Mirrors r)
    (id : ScopeId) :
    (l.enter id).Mirrors (r.enter id) where
  order := h.order_ensureTable id _
  tables := by
    intro other
    change (l.ensureTable id).tables.lookup other = _
    by_cases hOther : other = id
    · subst hOther
      rw [lookup_ensureTable_self, h.getD_lookup]
      exact (OrderedMap.get?_put_self _ _ _).symm
    · rw [lookup_ensureTable_of_ne _ _ hOther, h.tables]
      exact (OrderedMap.get?_put_of_ne _ _ hOther).symm
  stack := by
    simp [ScopeLedger.enter, Registry.enter, h.stack,
      Registry.openScopes]

theorem Mirrors.declare
    (h : l.Mirrors r)
    (scope : ScopeId)
    (key : String)
    (symbol : Symbol)
    (position : Position) :
    (l.declare scope key symbol position).1 =
        (r.declare scope key symbol position).1 ∧
      (l.declare scope key symbol position).2.Mirrors
        (r.declare scope key symbol position).2 := by
  have hStack := l.stack_declare scope key symbol position
  rw [declare_eq, h.getD_lookup] at hStack ⊢
  refine
    ⟨rfl,
      { order := h.order_ensureTable scope _
        tables := ?_
        stack := hStack.trans h.stack }⟩
  · intro other
    by_cases hOther : other = scope
    · subst hOther
      rw [Finmap.lookup_insert]
      exact (OrderedMap.get?_put_self _ _ _).symm
    · rw [Finmap.lookup_insert_of_ne _ hOther,
        lookup_ensureTable_of_ne _ _ hOther, h.tables]
      exact (OrderedMap.get?_put_of_ne _ _ hOther).symm

/- The stack holds the open scopes the other way round. -/
theorem Mirrors.stack_of_cons
    (h : l.Mirrors r)
    {id : ScopeId}
    {outer : List ScopeId}
    (hInner : r.inner = id :: outer) :
    l.stack = (outer ++ [ScopeId.global]).reverse ++ [id] := by
  rw [h.stack, Registry.openScopes, hInner,
    List.cons_append, List.reverse_cons]

theorem Mirrors.exit
    (h : l.Mirrors r) :
    l.exit.1 = r.exit.1 ∧ l.exit.2.Mirrors r.exit.2 := by
  unfold ScopeLedger.exit Registry.exit
  cases hInner : r.inner with
  | nil =>
      have hStack : l.stack = [.global] := by
        rw [h.stack, Registry.openScopes, hInner]
        rfl
      rw [hStack]
      exact ⟨rfl, h⟩
  | cons id outer =>
      have hStack := h.stack_of_cons hInner
      have hDeep : 1 < l.stack.length := by
        rw [hStack]
        simp
      rw [if_pos hDeep]
      refine ⟨?_, { h with stack := ?_ }⟩
      · rw [hStack]
        exact List.getLast?_concat
      · rw [hStack]
        exact List.dropLast_concat

theorem Mirrors.current
    (h : l.Mirrors r) :
    l.current? = some r.current := by
  unfold current? Registry.current
  cases hInner : r.inner with
  | nil =>
      rw [h.stack, Registry.openScopes, hInner]
      rfl
  | cons id outer =>
      rw [h.stack_of_cons hInner]
      exact List.getLast?_concat

/- Each use of a ledger is one of the registry. -/
theorem Mirrors.afterOp
    (h : l.Mirrors r)
    (op : RegistryOp) :
    ∃ later,
      l.afterOp op = some later ∧
        later.Mirrors (r.afterOp op) := by
  cases op with
  | enter id => exact ⟨l.enter id, rfl, h.enter id⟩
  | exit => exact ⟨l.exit.2, rfl, h.exit.2⟩
  | declare scope key symbol position =>
      exact
        ⟨_, rfl, (h.declare scope key symbol position).2⟩
  | declareHere key symbol position =>
      refine
        ⟨_, ?_, (h.declare r.current key symbol position).2⟩
      rw [ScopeLedger.afterOp, declareHere, h.current]
      rfl

/- So is a whole history. -/
theorem Mirrors.afterOps
    (h : l.Mirrors r)
    (ops : List RegistryOp) :
    ∃ later,
      l.afterOps ops = some later ∧
        later.Mirrors (r.afterOps ops) := by
  induction ops generalizing l r with
  | nil => exact ⟨l, rfl, h⟩
  | cons op ops ih =>
      rcases h.afterOp op with ⟨next, hNext, hMirrors⟩
      rw [afterOps_cons hNext]
      exact ih hMirrors

theorem Mirrors.lookup
    (h : l.Mirrors r)
    (scope : ScopeId)
    (key : String) :
    l.lookup scope key = r.lookup scope key := by
  rw [ScopeLedger.lookup, h.tables, Registry.lookup,
    Registry.tableOf]
  cases r.table? scope with
  | none => rfl
  | some t => rfl

/- So a ledger and its registry answer alike. -/
theorem Mirrors.answersLike
    (h : l.Mirrors r) :
    l.AnswersLike r where
  current := h.current
  depth := by
    rw [ScopeLedger.depth, h.stack, List.length_reverse]
    rfl
  lookup := h.lookup
  resolve := by
    intro key
    rw [ScopeLedger.resolve, h.stack, List.reverse_reverse]
    simp only [h.lookup]
    rfl
  scopes := by
    rw [ScopeLedger.scopes, h.order]
    simp only [h.tables]
    exact r.scopes.filterMap_keys
  exit := h.exit.1
  declare := by
    intro scope key symbol position
    exact (h.declare scope key symbol position).1

end ScopeLedger

end ScopeAnalysis

------------------------------------------------------------
-- Scopes Of A Ledger
------------------------------------------------------------

namespace ScopeAnalysis

namespace ScopeLedger

/-
  What a history leaves behind of scopes.  The global scope
  stays at the bottom, all open scopes have tables, and so
  have exactly those discovered, which are the global one
  and the ones that were named, by first occurrence.  The
  order grows at its end.  Closing takes the innermost scope
  away unless it is the last, declarations open and close
  nothing, and the number of open scopes follows from the
  history alone.  A registry with the same history holds and
  answers the same.
-/
structure KeepsScopes
    (ops : List RegistryOp)
    (l : ScopeLedger) : Prop where
  bottom : l.stack.head? = some .global
  open_tables :
    ∀ id ∈ l.stack, ∃ t, l.tables.lookup id = some t
  order :
    l.order =
      (.global ::
        ops.flatMap RegistryOp.named).eraseDups
  order_nodup : l.order.Nodup
  order_head : l.order.head? = some .global
  tables_iff :
    ∀ id,
      id ∈ l.order ↔ ∃ t, l.tables.lookup id = some t
  scopes_listed : l.scopes.map Prod.fst = l.order
  order_grows :
    ∀ more,
      ∃ later,
        initial.afterOps (ops ++ more) = some later ∧
          l.order <+: later.order
  exit_none_iff : l.exit.1 = none ↔ l.depth = 1
  exit_of_none : l.exit.1 = none → l.exit.2 = l
  exit_of_some :
    ∀ id,
      l.exit.1 = some id →
        l =
          { l.exit.2 with
            stack := l.exit.2.stack ++ [id] }
  declare_stack :
    ∀ scope key symbol position,
      (l.declare scope key symbol position).2.stack =
        l.stack
  declareHere_stack :
    ∀ key symbol position,
      ∃ answer later,
        l.declareHere key symbol position =
            some (answer, later) ∧
          later.stack = l.stack
  depth : l.depth = ops.foldl RegistryOp.depthAfter 1
  mirrors : l.Mirrors (Registry.initial.afterOps ops)
  answers : l.AnswersLike (Registry.initial.afterOps ops)

/- Every history keeps the scopes of a ledger in order. -/
theorem keepsScopes
    (ops : List RegistryOp) :
    ∃ l,
      initial.afterOps ops = some l ∧
        KeepsScopes ops l := by
  rcases agrees_initial.afterOps ops with
    ⟨l, hRun, hAgrees, hDepth⟩
  rcases mirrors_initial.afterOps ops with
    ⟨m, hSame, hMirrors⟩
  rw [hRun, Option.some.injEq] at hSame
  rw [← hSame] at hMirrors
  refine
    ⟨l, hRun,
      { bottom := hAgrees.bottom
        open_tables := ?_
        order := hAgrees.order
        order_nodup := hAgrees.nodup
        order_head := ?_
        tables_iff := ?_
        scopes_listed := hAgrees.map_fst_scopes
        order_grows := ?_
        exit_none_iff := hAgrees.exit_none_iff
        exit_of_none := ScopeLedger.exit_of_none
        exit_of_some := fun id => eq_of_exit
        declare_stack := l.stack_declare
        declareHere_stack := ?_
        depth := hDepth
        mirrors := hMirrors
        answers := hMirrors.answersLike }⟩
  · intro id hOpen
    exact
      Finmap.mem_iff.mp
        ((hAgrees.tables id).mp (hAgrees.open_known id hOpen))
  · rw [hAgrees.order, List.singleton_append,
      List.eraseDups_cons, List.head?_cons]
  · intro id
    rw [hAgrees.tables, Finmap.mem_iff]
  · intro more
    rcases hAgrees.afterOps more with
      ⟨later, hLater, hAgreesLater, _⟩
    refine ⟨later, ?_, hAgrees.order_prefix hAgreesLater⟩
    rw [afterOps_append hRun]
    exact hLater
  · intro key symbol position
    rcases hAgrees.declareHere key symbol position with
      ⟨answer, later, hDeclared, _, hStack⟩
    exact ⟨answer, later, hDeclared, hStack⟩

end ScopeLedger

end ScopeAnalysis
