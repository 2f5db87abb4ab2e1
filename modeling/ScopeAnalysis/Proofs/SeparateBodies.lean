import ScopeAnalysis.Proofs.Declaring
import ScopeAnalysis.Proofs.Discovery
import ScopeAnalysis.Proofs.OpenedScopes

/-
  When the bodies of two nodes have tables of their own.

  Key definitions include:
    * `NodeKind.HasBody`
    * `Node.Namesake`
    * `Visit.Avoids`
    * `Visit.Alone`
    * `KeepsBodiesApart`

  Key theorems include:
    * `Visit.common_scope_iff`
    * `avoids_of_alone`
    * `fresh_of_alone`
    * `keepsBodiesApart`

  The scope of a body is known by its signature or by its
  lines alone.  Two bodies that agree in these have one
  table, wherever they stand.  A body that agrees with no
  other has its table to itself: nothing outside of it
  declares into the table or looks into it.
-/

------------------------------------------------------------
-- Bodies
------------------------------------------------------------

namespace ScopeAnalysis

/- Methods, closed conditionals and closed loops. -/
def NodeKind.HasBody : NodeKind → Prop
| .methodDecl _ => True
| .closedConditional _ => True
| .closedLoop => True
| .classDecl _ => False
| .fieldDecl _ => False
| .varDef _ => False
| .assignment _ => False
| .openConditional => False
| .openLoop => False
| .block => False
| .expression _ => False
| .other => False

/-
  Two nodes whose bodies go by one name: methods of the same
  signature, or blocks of one kind on the same lines.
-/
def Node.Namesake (a b : Node) : Prop :=
  match a.kind, b.kind with
  | .methodDecl m, .methodDecl n =>
      m.signature = n.signature
  | .closedConditional _, .closedConditional _ =>
      a.span.startLine = b.span.startLine ∧
        a.span.endLine = b.span.endLine
  | .closedLoop, .closedLoop =>
      a.span.startLine = b.span.startLine ∧
        a.span.endLine = b.span.endLine
  | _, _ => False

/- What a node is when a scope of it is named after this. -/
def Node.Carries (node : Node) : ScopeName → Prop
| .global => False
| .classBody name =>
    ∃ decl,
      node.kind = .classDecl decl ∧ decl.name = name
| .methodBody signature =>
    ∃ decl,
      node.kind = .methodDecl decl ∧
        decl.signature = signature
| .ifBlock startLine endLine =>
    ∃ conditional,
      node.kind = .closedConditional conditional ∧
        node.span.startLine = startLine ∧
          node.span.endLine = endLine
| .elseBlock startLine endLine =>
    ∃ conditional,
      node.kind = .closedConditional conditional ∧
        node.span.startLine = startLine ∧
          node.span.endLine = endLine
| .whileBlock startLine endLine =>
    node.kind = .closedLoop ∧
      node.span.startLine = startLine ∧
        node.span.endLine = endLine

theorem Node.carries_of_mem_scopeNames
    {node : Node}
    {name : ScopeName}
    (hName : name ∈ node.scopeNames) :
    node.Carries name := by
  unfold scopeNames at hName
  cases hKind : node.kind with
  | classDecl decl =>
      rw [hKind] at hName
      rw [List.mem_singleton.mp hName]
      exact ⟨decl, hKind, rfl⟩
  | methodDecl decl =>
      rw [hKind] at hName
      rw [List.mem_singleton.mp hName]
      exact ⟨decl, hKind, rfl⟩
  | closedConditional conditional =>
      simp only [hKind] at hName
      split at hName
      · rcases List.mem_cons.mp hName with rfl | hIf
        · exact ⟨conditional, hKind, rfl, rfl⟩
        · rw [List.mem_singleton.mp hIf]
          exact ⟨conditional, hKind, rfl, rfl⟩
      · rw [List.mem_singleton.mp hName]
        exact ⟨conditional, hKind, rfl, rfl⟩
  | closedLoop =>
      rw [hKind] at hName
      rw [List.mem_singleton.mp hName]
      exact ⟨hKind, rfl, rfl⟩
  | _ => simp [hKind] at hName

/- No node has the global scope as its own. -/
theorem Node.global_notMem_scopes
    (node : Node) :
    .global ∉ node.scopes := by
  intro hGlobal
  rcases List.mem_map.mp hGlobal with ⟨name, hName, hEq⟩
  have hSame : name = .global := ScopeName.id_injective hEq
  rw [hSame] at hName
  exact carries_of_mem_scopeNames hName

/- Bodies with a common scope go by one name. -/
theorem Node.namesake_of_mem_scopes
    {a b : Node}
    (ha : a.kind.HasBody)
    {id : ScopeId}
    (hId : id ∈ a.scopes)
    (hId' : id ∈ b.scopes) :
    a.Namesake b := by
  rcases List.mem_map.mp hId with ⟨name, hName, rfl⟩
  rcases List.mem_map.mp hId' with ⟨other, hOther, hEq⟩
  rw [ScopeName.id_injective hEq] at hOther
  have hCarries := carries_of_mem_scopeNames hName
  have hCarries' := carries_of_mem_scopeNames hOther
  unfold Namesake
  cases name with
  | global => exact hCarries.elim
  | classBody className =>
      rcases hCarries with ⟨decl, hKind, _⟩
      rw [hKind] at ha
      exact ha.elim
  | methodBody signature =>
      rcases hCarries with ⟨m, hKind, rfl⟩
      rcases hCarries' with ⟨n, hKind', hSame⟩
      rw [hKind, hKind']
      exact hSame.symm
  | ifBlock startLine endLine =>
      rcases hCarries with ⟨c, hKind, rfl, rfl⟩
      rcases hCarries' with ⟨d, hKind', hStart, hEnd⟩
      rw [hKind, hKind']
      exact ⟨hStart.symm, hEnd.symm⟩
  | elseBlock startLine endLine =>
      rcases hCarries with ⟨c, hKind, rfl, rfl⟩
      rcases hCarries' with ⟨d, hKind', hStart, hEnd⟩
      rw [hKind, hKind']
      exact ⟨hStart.symm, hEnd.symm⟩
  | whileBlock startLine endLine =>
      rcases hCarries with ⟨hKind, rfl, rfl⟩
      rcases hCarries' with ⟨hKind', hStart, hEnd⟩
      rw [hKind, hKind']
      exact ⟨hStart.symm, hEnd.symm⟩

/- Bodies that go by one name have a common scope. -/
theorem Node.common_scope_of_namesake
    {a b : Node}
    (h : a.Namesake b) :
    ∃ id ∈ a.scopes, id ∈ b.scopes := by
  unfold Namesake at h
  split at h
  · rename_i m n hKind hKind'
    refine ⟨.ofMethod m.signature, ?_, ?_⟩
    · simp [scopes, scopeNames, hKind, ScopeName.id]
    · simp [scopes, scopeNames, hKind', ScopeName.id, h]
  · rename_i c d hKind hKind'
    refine ⟨.ofIf a.span.startLine a.span.endLine, ?_, ?_⟩
    · simp only [scopes, scopeNames, hKind]
      split <;> simp [ScopeName.id]
    · simp only [scopes, scopeNames, hKind', h.1, h.2]
      split <;> simp [ScopeName.id]
  · rename_i hKind hKind'
    refine ⟨.ofWhile a.span.startLine a.span.endLine, ?_, ?_⟩
    · simp [scopes, scopeNames, hKind, ScopeName.id]
    · simp [scopes, scopeNames, hKind', ScopeName.id, h]
  · exact h.elim

namespace Visit

/-
  Two visits that open the scopes of bodies open a common one
  exactly when their nodes go by one name.
-/
theorem common_scope_iff
    {u v : Visit}
    (hu : u.before.Writing)
    (hv : v.before.Writing)
    (hBody : u.node.kind.HasBody)
    (hOpens : u.opened ≠ [])
    (hOpens' : v.opened ≠ []) :
    (∃ id ∈ u.opened, id ∈ v.opened) ↔
      u.node.Namesake v.node := by
  rw [opened_of_ne_nil hu hOpens,
    opened_of_ne_nil hv hOpens']
  constructor
  · rintro ⟨id, hId, hId'⟩
    exact Node.namesake_of_mem_scopes hBody hId hId'
  · exact Node.common_scope_of_namesake

end Visit

end ScopeAnalysis

------------------------------------------------------------
-- Where A Visit Declares
------------------------------------------------------------

namespace ScopeAnalysis

namespace Registry

/- A declaration elsewhere leaves a scope as it is. -/
theorem Yields.lookup_of_ne
    {r s : Registry}
    {calls : List DeclareCall}
    (h : r.Yields calls s)
    {id : ScopeId}
    (hNone : ∀ c ∈ calls, c.scope ≠ id)
    (key : String) :
    s.lookup id key = r.lookup id key := by
  rcases h with ⟨ops, rfl, rfl⟩
  induction ops generalizing r with
  | nil => rfl
  | cons op ops ih =>
      rw [calls] at hNone
      have hFirst : ∀ c ∈ r.callsOf op, c.scope ≠ id :=
        fun c hc => hNone c (List.mem_append_left _ hc)
      rw [afterOps_cons, ih fun c hc =>
        hNone c (List.mem_append_right _ hc)]
      -- Another scope is another place, whatever the key.
      cases op with
      | enter other => exact r.lookup_enter other id key
      | exit => exact r.lookup_exit id key
      | declare scope other symbol position =>
          apply r.lookup_declare_of_ne
          intro hPlace
          exact hFirst _ (List.mem_singleton_self _)
            (congrArg Prod.fst hPlace).symm
      | declareHere other symbol position =>
          apply r.lookup_declare_of_ne
          intro hPlace
          exact hFirst _ (List.mem_singleton_self _)
            (congrArg Prod.fst hPlace).symm

end Registry

/- All names of a definition are declared in one scope. -/
theorem scope_of_mem_calls_declare
    {definition : VarDef}
    {span : Span}
    {names : List String}
    {r : Registry}
    {c : DeclareCall}
    (hc :
      c ∈ r.calls (names.map (definition.declare span))) :
    c.scope = r.current := by
  induction names generalizing r with
  | nil => cases hc
  | cons name names ih =>
      rw [List.map_cons, Registry.calls] at hc
      rcases List.mem_append.mp hc with hFirst | hRest
      · rw [VarDef.declare, Registry.callsOf,
          List.mem_singleton] at hFirst
        rw [hFirst]
        rfl
      · have hScope := ih hRest
        rw [hScope]
        rfl

namespace Visit

/- A visit declares in a scope that it finds or opens. -/
theorem scope_of_mem_calls
    {v : Visit}
    (hv : v.before.Writing)
    {c : DeclareCall}
    (hc : c ∈ v.calls) :
    c.scope ∈ v.before.registry.openScopes ∨
      c.scope ∈ v.opened := by
  have hCurrent := v.before.registry.current_mem_openScopes
  have hBlock :
      ¬ v.node.kind.IsMethod →
        c.scope ∈ v.node.scopes →
          c.scope ∈ v.opened := by
    intro hKind hScope
    rcases opened_eq hv with h | ⟨hMethod, _⟩
    · rwa [h]
    · exact absurd hMethod hKind
  unfold calls Node.declarations at hc
  cases hKind : v.node.kind with
  | classDecl decl =>
      rw [hKind] at hc
      rw [List.mem_singleton.mp hc]
      exact .inl (List.mem_append_right _
        (List.mem_singleton_self _))
  | fieldDecl decl =>
      rw [hKind] at hc
      rw [List.mem_singleton.mp hc]
      exact .inl hCurrent
  | methodDecl decl =>
      rw [hKind] at hc
      rw [List.mem_singleton.mp hc]
      exact .inl hCurrent
  | varDef definition =>
      rw [hKind] at hc
      rw [scope_of_mem_calls_declare hc]
      exact .inl hCurrent
  | closedConditional conditional =>
      rw [hKind] at hc
      apply Or.inr
      apply hBlock (by simp [NodeKind.IsMethod, hKind])
      rw [List.mem_singleton.mp hc]
      simp only [Node.scopes, Node.scopeNames, hKind]
      split <;> simp [ScopeName.id, Registry.callFor]
  | closedLoop =>
      rw [hKind] at hc
      apply Or.inr
      apply hBlock (by simp [NodeKind.IsMethod, hKind])
      rw [List.mem_singleton.mp hc]
      simp [Node.scopes, Node.scopeNames, hKind,
        ScopeName.id, Registry.callFor]
  | _ => simp [hKind, Registry.calls] at hc

end Visit

end ScopeAnalysis

------------------------------------------------------------
-- Avoided Scopes
------------------------------------------------------------

namespace ScopeAnalysis

/- The same registry with another table for one scope. -/
def Registry.withTable
    (r : Registry)
    (id : ScopeId)
    (t : ScopeTable) : Registry :=
  { r with scopes := r.scopes.put id t }

/- A scope that is not open is not looked into. -/
theorem Registry.resolve_withTable
    {r : Registry}
    {id : ScopeId}
    (h : id ∉ r.openScopes)
    (t : ScopeTable)
    (key : String) :
    (r.withTable id t).resolve key = r.resolve key := by
  have hOpen : (r.withTable id t).openScopes = r.openScopes :=
    rfl
  unfold resolve
  rw [hOpen]
  generalize r.openScopes = scopes at h
  induction scopes with
  | nil => rfl
  | cons scope scopes ih =>
      rw [List.mem_cons, not_or] at h
      have hLookup :
          (r.withTable id t).lookup scope key =
            r.lookup scope key :=
        congrArg
          (fun table : ScopeTable => table.get? key)
          (tableOf_put_of_ne r _ _ (Ne.symm h.1))
      rw [List.findSome?_cons, List.findSome?_cons, hLookup,
        ih h.2]

/-
  A visit that has nothing to do with a scope: the scope is
  not open, nothing is declared in it, it keeps all that it
  has, and the check of an index gives the same verdict
  whatever its table may be.
-/
structure Visit.Avoids
    (v : Visit)
    (id : ScopeId) : Prop where
  closed : id ∉ v.before.registry.openScopes
  calls : ∀ c ∈ v.calls, c.scope ≠ id
  kept :
    ∀ key,
      v.after.registry.lookup id key =
        v.before.registry.lookup id key
  index :
    ∀ t assignment start,
      judgeIndex (v.before.registry.withTable id t)
          assignment start =
        judgeIndex v.before.registry assignment start

/- A scope is avoided when it is neither open nor opened. -/
theorem Visit.avoids_of_closed
    {v : Visit}
    (hv : v.before.Writing)
    {id : ScopeId}
    (hClosed : id ∉ v.before.registry.openScopes)
    (hOpened : id ∉ v.opened) :
    v.Avoids id := by
  have hCalls : ∀ c ∈ v.calls, c.scope ≠ id := by
    rintro c hc rfl
    rcases scope_of_mem_calls hv hc with hOpen | hNew
    · exact hClosed hOpen
    · exact hOpened hNew
  refine
    ⟨hClosed, hCalls, v.yields_after.lookup_of_ne hCalls, ?_⟩
  intro t assignment start
  simp only [judgeIndex,
    Registry.resolve_withTable hClosed]

end ScopeAnalysis

------------------------------------------------------------
-- Tables Of Their Own
------------------------------------------------------------

namespace ScopeAnalysis

variable {options : Options}
variable {program : Program}

theorem writing_of_mem_visits
    {v : Visit}
    (hv : v ∈ visits options program) :
    v.before.Writing := by
  rcases List.append_of_mem hv with ⟨earlier, later, h⟩
  exact (reached_of_visits h).1

/- The visits of what a node contains follow its own. -/
theorem inside_of_visits
    {earlier rest : List Visit}
    {u : Visit}
    (h : visits options program = earlier ++ u :: rest) :
    ∃ inside later,
      rest = inside ++ later ∧
        inside.map Visit.node =
          Node.preorderAll u.node.children := by
  have hNodes := nodes_visits options program
  rw [h, List.map_append, List.map_cons] at hNodes
  rcases preorderAll_split program.items hNodes.symm with
    ⟨outside, hRest⟩
  rcases List.map_eq_append_iff.mp hRest.symm with
    ⟨inside, later, hSplit, hInside, _⟩
  exact ⟨inside, later, hSplit, hInside⟩

/- No other visit that opens scopes goes by the same name. -/
def Visit.Alone
    (u : Visit)
    (others : List Visit) : Prop :=
  ∀ e ∈ others, e.opened ≠ [] → ¬ u.node.Namesake e.node

/- Scopes of a body are opened by no other visit. -/
theorem Visit.Alone.notMem_opened
    {u e : Visit}
    {others : List Visit}
    (h : u.Alone others)
    (hu : u.before.Writing)
    (hBody : u.node.kind.HasBody)
    (hMem : e ∈ others)
    (he : e.before.Writing)
    {id : ScopeId}
    (hId : id ∈ u.opened) :
    id ∉ e.opened := by
  intro hOpened
  apply h e hMem (List.ne_nil_of_mem hOpened)
  exact Node.namesake_of_mem_scopes hBody
    (mem_scopes_of_mem_opened hu hId)
    (mem_scopes_of_mem_opened he hOpened)

/- An open scope other than the global one has an opener. -/
theorem opener_of_visits
    {before after : List Visit}
    {w : Visit}
    (h : visits options program = before ++ w :: after)
    {id : ScopeId}
    (hOpen : id ∈ w.before.registry.openScopes)
    (hInner : id ≠ .global) :
    ∃ outer e between,
      before = outer ++ e :: between ∧
        between.length <
            (Node.preorderAll e.node.children).length ∧
          id ∈ e.opened := by
  have hAround :=
    openedAround_visitsFrom program.items
      (writing_entered options program) h
  rcases List.mem_append.mp hOpen with hMem | hGlobal
  · rcases hAround id hMem with hBase | hOpener
    · cases hBase
    · exact hOpener
  · exact absurd (List.mem_singleton.mp hGlobal) hInner

/- A visit avoids a scope that nothing around it opens. -/
theorem avoids_of_visits
    {before after : List Visit}
    {w : Visit}
    (h : visits options program = before ++ w :: after)
    {id : ScopeId}
    (hInner : id ≠ .global)
    (hOpened : id ∉ w.opened)
    (hAround :
      ∀ outer e between,
        before = outer ++ e :: between →
          between.length <
              (Node.preorderAll e.node.children).length →
            id ∉ e.opened) :
    w.Avoids id := by
  apply Visit.avoids_of_closed (reached_of_visits h).1 _ hOpened
  intro hOpen
  rcases opener_of_visits h hOpen hInner with
    ⟨outer, e, between, hSplit, hWithin, hOpener⟩
  exact hAround outer e between hSplit hWithin hOpener

section Alone

variable {earlier inside later : List Visit}
variable {u w : Visit}
variable {id : ScopeId}

/-
  A visit avoids the scopes of a body that is alone, unless
  it is within the body: what is around it is then neither
  the body nor one that shares a scope with it.
-/
theorem avoids_of_alone
    (h :
      visits options program =
        earlier ++ u :: (inside ++ later))
    (hInside :
      inside.map Visit.node =
        Node.preorderAll u.node.children)
    (hBody : u.node.kind.HasBody)
    (hAlone : u.Alone (earlier ++ (inside ++ later)))
    (hId : id ∈ u.opened)
    (hw : w ∈ earlier ∨ w ∈ later) :
    w.Avoids id := by
  have hu := (reached_of_visits h).1
  have hInner : id ≠ .global := by
    rintro rfl
    exact u.node.global_notMem_scopes
      (Visit.mem_scopes_of_mem_opened hu hId)
  have hOther :
      ∀ e ∈ earlier ++ (inside ++ later), id ∉ e.opened := by
    intro e he
    have hVisit : e ∈ visits options program := by
      rw [h]
      simp only [List.mem_append, List.mem_cons] at he ⊢
      tauto
    exact hAlone.notMem_opened hu hBody he
      (writing_of_mem_visits hVisit) hId
  rcases hw with hw | hw
  · rcases List.append_of_mem hw with ⟨front, back, rfl⟩
    rw [List.append_assoc, List.cons_append] at h
    refine avoids_of_visits h hInner
      (hOther w (List.mem_append_left _ hw)) ?_
    rintro outer e between rfl _
    exact hOther e (by simp)
  · rcases List.append_of_mem hw with ⟨front, back, rfl⟩
    have hSplit :
        visits options program =
          (earlier ++ u :: (inside ++ front)) ++ w :: back := by
      rw [h]
      simp
    refine avoids_of_visits hSplit hInner
      (hOther w (by simp)) ?_
    intro outer e between hBefore hWithin
    rcases split_append hBefore with
      ⟨rest, rfl, _⟩ | ⟨gap, _, hBehind⟩
    · exact hOther e (by simp)
    · cases gap with
      | nil =>
          -- The body itself has been left by then.
          rw [List.nil_append, List.cons.injEq] at hBehind
          rcases hBehind with ⟨rfl, rfl⟩
          rw [← hInside, List.length_map,
            List.length_append] at hWithin
          omega
      | cons first gap =>
          rw [List.cons_append, List.cons.injEq] at hBehind
          have hMem : e ∈ inside ++ front := by
            rw [hBehind.2]
            simp
          apply hOther e
          simp only [List.mem_append, List.mem_cons] at hMem ⊢
          tauto

/- The tables of a body that is alone start without keys. -/
theorem fresh_of_alone
    (h :
      visits options program =
        earlier ++ u :: (inside ++ later))
    (hInside :
      inside.map Visit.node =
        Node.preorderAll u.node.children)
    (hBody : u.node.kind.HasBody)
    (hAlone : u.Alone (earlier ++ (inside ++ later)))
    (hId : id ∈ u.opened)
    (key : String) :
    u.before.registry.lookup id key = none := by
  rw [Option.eq_none_iff_forall_ne_some]
  intro found hFound
  rcases ((reached_of_visits h).2.taken_iff id key).mp
      ⟨found, hFound⟩ with
    ⟨c, hc, hScope, _⟩
  rcases List.mem_flatMap.mp hc with ⟨w, hw, hCall⟩
  have hAvoids :=
    avoids_of_alone h hInside hBody hAlone hId (.inl hw)
  exact hAvoids.calls c hCall hScope

end Alone

end ScopeAnalysis

------------------------------------------------------------
-- Bodies Kept Apart
------------------------------------------------------------

namespace ScopeAnalysis

/-
  How an analysis whose sink never fails keeps the bodies of
  methods, conditionals and loops apart.  Two of them share a
  table exactly when they go by one name.  One that goes by
  a name of its own finds its tables empty, and no visit but
  its own and those within it has to do with them.
-/
structure KeepsBodiesApart
    (options : Options)
    (program : Program) : Prop where
  nodes :
    (visits options program).map Visit.node =
      Node.preorderAll program.items
  opened :
    ∀ v ∈ visits options program,
      v.after.registry.openScopes =
        v.opened ++ v.before.registry.openScopes
  common_iff :
    ∀ u ∈ visits options program,
      ∀ v ∈ visits options program,
        u.node.kind.HasBody →
          u.opened ≠ [] → v.opened ≠ [] →
            ((∃ id ∈ u.opened, id ∈ v.opened) ↔
              u.node.Namesake v.node)
  inside :
    ∀ earlier u rest,
      visits options program = earlier ++ u :: rest →
        ∃ inside later,
          rest = inside ++ later ∧
            inside.map Visit.node =
              Node.preorderAll u.node.children
  apart :
    ∀ earlier u inside later,
      visits options program =
          earlier ++ u :: (inside ++ later) →
        inside.map Visit.node =
            Node.preorderAll u.node.children →
          u.node.kind.HasBody →
            u.Alone (earlier ++ (inside ++ later)) →
              ∀ id ∈ u.opened,
                (∀ key,
                    u.before.registry.lookup id key =
                      none) ∧
                  ∀ w,
                    w ∈ earlier ∨ w ∈ later → w.Avoids id

/- Every analysis keeps bodies apart in this way. -/
theorem keepsBodiesApart
    (options : Options)
    (program : Program) :
    KeepsBodiesApart options program where
  nodes := nodes_visits options program
  opened := fun v hv => by
    rw [Registry.openScopes, Registry.openScopes,
      Visit.inner_after (writing_of_mem_visits hv),
      List.append_assoc]
  common_iff := fun _ hu _ hv =>
    Visit.common_scope_iff (writing_of_mem_visits hu)
      (writing_of_mem_visits hv)
  inside := fun _ _ _ h => inside_of_visits h
  apart := fun _ _ _ _ h hInside hBody hAlone _ hId =>
    ⟨fresh_of_alone h hInside hBody hAlone hId,
      fun _ => avoids_of_alone h hInside hBody hAlone hId⟩

/- No two nodes of a program start in one place. -/
def Program.DistinctStarts (program : Program) : Prop :=
  ((Node.preorderAll program.items).map
    fun node => node.span.start).Nodup

instance
    (program : Program) :
    Decidable program.DistinctStarts := by
  unfold Program.DistinctStarts
  infer_instance

/- A definition of an array `x` of two elements. -/
def Node.arrayOfTwo : Node where
  kind := .varDef ⟨["x"], [], some 2⟩
  span := .token 1 5
  children := []

/- An assignment to the sixth element of an array `x`. -/
def Node.sixthElement : Node where
  kind := .assignment ⟨"x", some ⟨"5", 1, 27⟩, ⟨"1", 1, 32⟩⟩
  span := .token 1 25
  children := []

/- A closed conditional on line 1, around one statement. -/
def Node.lineBlock
    (column : Nat)
    (statement : Node) : Node where
  kind := .closedConditional ⟨none⟩
  span := .lines 1 column 1
  children := [statement]

/-
  Two conditionals on one line.  The first one declares an
  array, and by its length the index in the second one is
  reported to be out of range.
-/
def Program.sameLineBlocks : Program where
  source := "p"
  items :=
    [ .lineBlock 0 .arrayOfTwo,
      .lineBlock 20 .sixthElement ]

/- Different blocks can have one table. -/
theorem blocks_share_table :
    ¬ ∀ options program,
        program.DistinctStarts →
          ∀ earlier u between v later,
            visits options program =
                earlier ++ u :: (between ++ v :: later) →
              u.node.kind.HasBody → v.node.kind.HasBody →
                ∀ id ∈ u.opened, id ∉ v.opened := by
  intro hClaim
  let first : Visit :=
    ⟨.lineBlock 0 .arrayOfTwo,
      .entered .standard .sameLineBlocks⟩
  let second : Visit :=
    ⟨.lineBlock 20 .sixthElement,
      first.before.afterEvents first.node.events⟩
  have hVisits :
      visits .standard .sameLineBlocks =
        [] ++
          first ::
            ([⟨.arrayOfTwo, first.after⟩] ++
              second :: [⟨.sixthElement, second.after⟩]) :=
    rfl
  have hDistinct : Program.sameLineBlocks.DistinctStarts := by
    decide +kernel
  have hFirst : .ofIf 1 1 ∈ first.opened := by
    decide +kernel
  have hSecond : .ofIf 1 1 ∈ second.opened := by
    decide +kernel
  exact hClaim _ _ hDistinct _ _ _ _ _ hVisits trivial trivial
    _ hFirst hSecond

end ScopeAnalysis
