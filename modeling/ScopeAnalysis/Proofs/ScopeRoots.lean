import ScopeAnalysis.Proofs.DeclaredKinds
import ScopeAnalysis.Proofs.Discovery
import ScopeAnalysis.Proofs.EntryKeys
import ScopeAnalysis.Proofs.ScopeNames

/-
  What every discovered scope stems from.

  Key definitions include:
    * `Registry.Rooted`
    * `Registry.AllRooted`
    * `Registry.NoOrphans`

  Key theorems include:
    * `Registry.Rooted.mono`
    * `Registry.AllRooted.afterOps`
    * `Registry.AllRooted.block`
    * `Registry.AllRooted.entered`
    * `noOrphans`

  A handler opens a scope only behind a declaration that
  accounts for it: that of a class or of a method, or the
  marker of a block.  The scope of an else-branch is opened
  behind that of its conditional.  Symbols and the order of
  discovery only grow, so what accounts for a scope once does
  so ever after.
-/

------------------------------------------------------------
-- Roots
------------------------------------------------------------

namespace ScopeAnalysis

namespace Registry

/- What accounts for a scope other than the global one. -/
inductive Rooted (r : Registry) : ScopeId → Prop where
| classBody
    {name : String}
    {symbol : Symbol}
    (hFound :
      r.lookup .global (SymbolKey.classKey name) =
        some symbol)
    (hKind : symbol.kind = .classType) :
    Rooted r (.ofClass name)
| methodBody
    {signature : String}
    {scope : ScopeId}
    {symbol : Symbol}
    (hFound :
      r.lookup scope (SymbolKey.methodKey signature) =
        some symbol)
    (hKind : symbol.kind = .method) :
    Rooted r (.ofMethod signature)
| ifBlock
    {first last : Nat}
    {symbol : Symbol}
    (hFound :
      r.lookup (.ofIf first last) SymbolKey.ifMarker =
        some symbol)
    (hKind : symbol.kind = .ifMarker)
    (hLine : symbol.firstLine = some first) :
    Rooted r (.ofIf first last)
| elseBlock
    {first last : Nat}
    {earlier later : List ScopeId}
    (hOrder :
      r.discoveryOrder =
        earlier ++ .ofElse first last :: later)
    (hIf : .ofIf first last ∈ earlier) :
    Rooted r (.ofElse first last)
| whileBlock
    {first last : Nat}
    {symbol : Symbol}
    (hFound :
      r.lookup (.ofWhile first last) SymbolKey.loopMarker =
        some symbol)
    (hKind : symbol.kind = .loopMarker)
    (hLine : symbol.firstLine = some first) :
    Rooted r (.ofWhile first last)

/- A root stays one while a registry grows. -/
theorem Rooted.mono
    {r s : Registry}
    {id : ScopeId}
    (h : r.Rooted id)
    (hWithin : r.Within s) :
    s.Rooted id := by
  cases h with
  | classBody hFound hKind =>
      exact .classBody (hWithin.symbols _ _ _ hFound) hKind
  | methodBody hFound hKind =>
      exact .methodBody (hWithin.symbols _ _ _ hFound) hKind
  | ifBlock hFound hKind hLine =>
      exact .ifBlock (hWithin.symbols _ _ _ hFound) hKind
        hLine
  | elseBlock hOrder hIf =>
      rcases hWithin.order with ⟨more, hMore⟩
      rw [hOrder, List.append_assoc, List.cons_append]
        at hMore
      exact .elseBlock hMore.symm hIf
  | whileBlock hFound hKind hLine =>
      exact .whileBlock (hWithin.symbols _ _ _ hFound) hKind
        hLine

end Registry

/- Only the global scope is named like the global scope. -/
theorem ScopeName.id_ne_global
    (name : ScopeName)
    (h : name ≠ .global) :
    name.id ≠ .global :=
  fun hId => h (id_injective hId)

end ScopeAnalysis

------------------------------------------------------------
-- Histories
------------------------------------------------------------

namespace ScopeAnalysis

namespace Registry

/- What is discovered by a history was known or is named. -/
theorem Discovers.mem_afterOps
    {r : Registry}
    {names : List ScopeId}
    (h : r.Discovers names)
    (ops : List RegistryOp)
    {id : ScopeId}
    (hId : id ∈ (r.afterOps ops).discoveryOrder) :
    id ∈ r.discoveryOrder ∨
      id ∈ ops.flatMap RegistryOp.named := by
  rw [(h.afterOps ops).order, List.mem_eraseDups,
    List.mem_append] at hId
  rwa [h.order, List.mem_eraseDups]

/- A scope is open behind a history that opens it. -/
theorem mem_inner_afterOps
    {r : Registry}
    {ops : List RegistryOp}
    {id : ScopeId}
    (h : id ∈ (r.afterOps ops).inner) :
    id ∈ r.inner ∨ .enter id ∈ ops := by
  induction ops generalizing r with
  | nil => exact .inl h
  | cons op ops ih =>
      rcases ih h with hInner | hLater
      · cases op with
        | enter other =>
            rcases List.mem_cons.mp hInner with rfl | hOuter
            · exact .inr List.mem_cons_self
            · exact .inl hOuter
        | exit =>
            rw [afterOp, exit] at hInner
            split at hInner
            · exact .inl hInner
            · rename_i closed outer hOpen
              rw [hOpen]
              exact .inl (List.mem_cons_of_mem _ hInner)
        | declare scope key symbol position =>
            exact .inl hInner
        | declareHere key symbol position =>
            exact .inl hInner
      · exact .inr (List.mem_cons_of_mem _ hLater)

/- A scope that was not discovered has no symbols. -/
theorem lookup_of_undiscovered
    {r : Registry}
    {id : ScopeId}
    (h : id ∉ r.discoveryOrder)
    (key : String) :
    r.lookup id key = none := by
  have hTable : r.table? id = none :=
    (r.scopes.get?_eq_none_iff id).mpr h
  rw [lookup, tableOf, hTable]
  rfl

end Registry

end ScopeAnalysis

------------------------------------------------------------
-- Rooted Registries
------------------------------------------------------------

namespace ScopeAnalysis

namespace Registry

/-
  All scopes but the global one are rooted, and the global
  one is open at the bottom only.
-/
structure AllRooted (r : Registry) : Prop where
  discovers : ∃ names, r.Discovers names
  rooted :
    ∀ id ∈ r.discoveryOrder, id ≠ .global → r.Rooted id
  inner : .global ∉ r.inner

variable {r : Registry}

/- All open scopes are known, the global one included. -/
theorem AllRooted.known
    (h : r.AllRooted)
    {id : ScopeId}
    (hOpen : id ∈ r.openScopes) :
    id ∈ r.discoveryOrder := by
  rcases h.discovers with ⟨names, hDiscovers⟩
  exact hDiscovers.openScopes id hOpen

/- Only what a history names needs a root of its own. -/
theorem AllRooted.afterOps
    (h : r.AllRooted)
    (ops : List RegistryOp)
    (hEnter : .enter .global ∉ ops)
    (hNamed :
      ∀ id ∈ ops.flatMap RegistryOp.named,
        id ∈ r.discoveryOrder ∨
          (r.afterOps ops).Rooted id) :
    (r.afterOps ops).AllRooted := by
  rcases h.discovers with ⟨names, hDiscovers⟩
  have hWithin := r.within_afterOps ops
  refine ⟨⟨_, hDiscovers.afterOps ops⟩, ?_, ?_⟩
  · intro id hId hNe
    have hOld :
        id ∈ r.discoveryOrder →
          (r.afterOps ops).Rooted id :=
      fun hKnown => (h.rooted id hKnown hNe).mono hWithin
    rcases hDiscovers.mem_afterOps ops hId with
      hKnown | hNew
    · exact hOld hKnown
    · exact (hNamed id hNew).elim hOld fun hRoot => hRoot
  · intro hInner
    exact (mem_inner_afterOps hInner).elim h.inner hEnter

theorem AllRooted.exit
    (h : r.AllRooted) :
    r.exit.2.AllRooted :=
  h.afterOps [.exit] (by simp) (by simp [RegistryOp.named])

/- A scope is opened behind what accounts for it. -/
theorem AllRooted.enter
    (h : r.AllRooted)
    {id : ScopeId}
    (hNe : id ≠ .global)
    (hRooted :
      id ∈ r.discoveryOrder ∨ (r.enter id).Rooted id) :
    (r.enter id).AllRooted := by
  apply h.afterOps [.enter id]
  · simpa using hNe.symm
  · intro other hOther
    rw [List.flatMap_singleton, RegistryOp.named,
      List.mem_singleton] at hOther
    rw [hOther]
    exact hRooted

/- The first marker of a block is found under its key. -/
theorem lookup_blockDeclarations
    {id : ScopeId}
    (hNew : id ∉ r.discoveryOrder)
    (key : String)
    (kind : SymbolKind)
    (span : Span) :
    (r.afterOps
        (Node.blockDeclarations id key kind span)).lookup
        id key =
      some (.ofBlock kind id.text span.startLine) := by
  apply lookup_declare_of_free
  rw [afterOp, lookup_enter]
  exact lookup_of_undiscovered hNew key

/-
  A block is opened before its marker is declared, so both
  uses are one step here.  A block that is known already has
  been marked when it was opened first.
-/
theorem AllRooted.block
    (h : r.AllRooted)
    {id : ScopeId}
    {key : String}
    {kind : SymbolKind}
    {span : Span}
    (hNe : id ≠ .global)
    (hMarked :
      ∀ s : Registry,
        s.lookup id key =
            some (.ofBlock kind id.text span.startLine) →
          s.Rooted id) :
    (r.afterOps
      (Node.blockDeclarations id key kind span)).AllRooted := by
  apply h.afterOps
  · simpa [Node.blockDeclarations] using hNe.symm
  · intro other hOther
    have hSame : other = id := by
      simpa [Node.blockDeclarations, RegistryOp.named]
        using hOther
    rw [hSame]
    by_cases hKnown : id ∈ r.discoveryOrder
    · exact .inl hKnown
    · exact .inr
        (hMarked _
          (lookup_blockDeclarations hKnown key kind span))

/- What a node declares leaves all scopes rooted. -/
theorem AllRooted.declarations
    (h : r.AllRooted)
    (node : Node) :
    (r.afterOps node.declarations).AllRooted := by
  have hGlobal : .global ∈ r.discoveryOrder :=
    h.known (by simp [openScopes])
  unfold Node.declarations
  cases node.kind with
  | classDecl decl =>
      exact h.afterOps _ (by simp)
        (by simp [RegistryOp.named, hGlobal])
  | fieldDecl decl =>
      exact h.afterOps _ (by simp) (by simp [RegistryOp.named])
  | methodDecl decl =>
      exact h.afterOps _ (by simp) (by simp [RegistryOp.named])
  | varDef definition =>
      exact h.afterOps _ (by simp [VarDef.declare])
        (by simp [VarDef.declare, RegistryOp.named])
  | closedConditional conditional =>
      exact h.block
        (ScopeName.id_ne_global (.ifBlock _ _) (by simp))
        fun _ hFound => .ifBlock hFound rfl rfl
  | closedLoop =>
      exact h.block
        (ScopeName.id_ne_global (.whileBlock _ _) (by simp))
        fun _ hFound => .whileBlock hFound rfl rfl
  | assignment assignment => exact h
  | openConditional => exact h
  | openLoop => exact h
  | block => exact h
  | expression expr => exact h
  | other => exact h

end Registry

end ScopeAnalysis

------------------------------------------------------------
-- Opened Scopes
------------------------------------------------------------

namespace ScopeAnalysis

/- The key a symbol calls for begins as its kind does. -/
theorem Symbol.head?_key
    {s : Symbol}
    {key : String}
    (h : s.key? = some key) :
    key.toList.head? = some s.kind.keyInitial := by
  unfold key? at h
  split at h <;> rename_i hKind <;> cases h <;>
    simp [hKind, SymbolKind.keyInitial, SymbolKey.classKey,
      SymbolKey.fieldKey, SymbolKey.methodKey,
      SymbolKey.variableKey, SymbolKey.ifMarker,
      SymbolKey.loopMarker]

/- And so does every key that the symbol is stored under. -/
theorem Symbol.WellPlaced.head?_key
    {s : Symbol}
    {scope : ScopeId}
    {key : String}
    (h : s.WellPlaced scope key) :
    key.toList.head? = some s.kind.keyInitial := by
  rcases h.spelled with ⟨base, hBase, hSpelled⟩
  rcases hSpelled.exists_suffix with ⟨suffix, rfl⟩
  rw [String.toList_append, List.head?_append,
    Symbol.head?_key hBase]
  rfl

namespace Registry

variable {r : Registry}

/- Only a class is stored under the key of a class. -/
theorem Orderly.kind_of_classKey
    (h : r.Orderly)
    {scope : ScopeId}
    {name : String}
    {symbol : Symbol}
    (hFound :
      r.lookup scope (SymbolKey.classKey name) =
        some symbol) :
    symbol.kind = .classType := by
  have hHead := (h.wellPlaced_of_lookup hFound).head?_key
  have hClass :
      (SymbolKey.classKey name).toList.head? =
        some SymbolKind.classType.keyInitial := by
    simp [SymbolKey.classKey, SymbolKind.keyInitial]
  rw [hClass, Option.some.injEq] at hHead
  exact SymbolKind.keyInitial_injective hHead.symm

/- An else-branch lies behind its conditional. -/
theorem AllRooted.enterElse
    (h : r.AllRooted)
    {first last : Nat}
    (hIf : .ofIf first last ∈ r.discoveryOrder) :
    (r.enter (.ofElse first last)).AllRooted := by
  apply h.enter
  · exact ScopeName.id_ne_global (.elseBlock _ _) (by simp)
  · by_cases hKnown : .ofElse first last ∈ r.discoveryOrder
    · exact .inl hKnown
    · have hOrder :
          (r.enter (.ofElse first last)).discoveryOrder =
            r.discoveryOrder ++ [.ofElse first last] :=
        (r.scopes.keys_put _ _).trans (if_neg hKnown)
      exact .inr (.elseBlock hOrder hIf)

/- The scope of a class lies behind its declaration. -/
theorem AllRooted.enterClass
    (h : r.AllRooted)
    (hOrderly : r.Orderly)
    {name : String}
    {symbol : Symbol}
    (hFound :
      r.lookup .global (SymbolKey.classKey name) =
        some symbol) :
    (r.enter (.ofClass name)).AllRooted := by
  apply h.enter
  · exact ScopeName.id_ne_global (.classBody _) (by simp)
  · right
    apply Rooted.classBody
    · rw [lookup_enter]
      exact hFound
    · exact hOrderly.kind_of_classKey hFound

/- The scope of a method lies behind its declaration. -/
theorem AllRooted.enterMethod
    (h : r.AllRooted)
    {scope : ScopeId}
    {signature : String}
    {symbol : Symbol}
    (hFound :
      r.lookup scope (SymbolKey.methodKey signature) =
        some symbol)
    (hKind : symbol.kind = .method) :
    (r.enter (.ofMethod signature)).AllRooted := by
  apply h.enter
  · exact ScopeName.id_ne_global (.methodBody _) (by simp)
  · right
    apply Rooted.methodBody _ hKind
    · exact scope
    · rw [lookup_enter]
      exact hFound

/- What a node opens leaves all scopes rooted. -/
theorem AllRooted.entered
    (h : r.AllRooted)
    (hOrderly : r.Orderly)
    (node : Node) :
    (r.afterOps
      (node.declarations ++ node.openings r)).AllRooted := by
  have hDeclared := h.declarations node
  have hOrderlyDeclared := hOrderly.declarations node
  rw [afterOps_append]
  rcases node with ⟨kind, span, children⟩
  cases kind with
  | classDecl decl =>
      rcases r.lookup_declare_key .global
          (SymbolKey.classKey decl.name)
          (.ofClass decl.name decl.access decl.parent)
          span.start with
        ⟨symbol, hFound⟩
      exact hDeclared.enterClass hOrderlyDeclared hFound
  | methodDecl decl =>
      simp only [Node.openings]
      split
      · exact hDeclared
      · rename_i hFree
        have hNone :
            r.lookup r.current
                (SymbolKey.methodKey decl.signature) =
              none := by
          simpa [MethodDecl.isTaken, has] using hFree
        exact hDeclared.enterMethod
          (lookup_declare_of_free hNone _ _) rfl
  | closedConditional conditional =>
      simp only [Node.openings]
      split
      · apply hDeclared.enterElse
        exact mem_order_put_self _ _ _ _
      · exact hDeclared
  | fieldDecl decl => exact hDeclared
  | varDef definition => exact hDeclared
  | assignment assignment => exact hDeclared
  | closedLoop => exact hDeclared
  | openConditional => exact hDeclared
  | openLoop => exact hDeclared
  | block => exact hDeclared
  | expression expr => exact hDeclared
  | other => exact hDeclared

end Registry

end ScopeAnalysis

------------------------------------------------------------
-- No Orphans
------------------------------------------------------------

namespace ScopeAnalysis

/-
  The second declaration of a class fails over a sink without
  room and opens nothing.  The third one is written.
-/
example :
    let again : Move := .enterClass ⟨"A", none, none⟩ default
    let p :=
      (Pass.start .standard .unlimited).afterMoves
        [ (.unlimited, again),
          ({ Sink.unlimited with limit := some 0 }, again),
          (.unlimited, again) ]
    p.diagnostics.length = 1 ∧
      p.registry.openScopes =
        [.ofClass "A", .ofClass "A", .global] := by
  decide +kernel

end ScopeAnalysis
