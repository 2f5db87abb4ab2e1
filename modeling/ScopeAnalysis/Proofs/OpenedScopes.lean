import ScopeAnalysis.Proofs.Frames
import ScopeAnalysis.Proofs.Nesting
import ScopeAnalysis.Proofs.ScopeNames
import ScopeAnalysis.Proofs.Visits

/-
  Which scopes are open at a visit, and who has opened them.

  Key definitions include:
    * `Node.scopeNames`
    * `Visit.opened`
    * `Visit.OpenedAround`

  Key theorems include:
    * `Visit.opened_eq`
    * `Visit.inner_after`
    * `openedAround_visitsFrom`
    * `preorderAll_split`

  A visit opens the scopes that its node is named by, unless
  it is that of a method declared before.  A scope that a
  visit finds open has been opened by a node around it, that
  is, by an earlier visit whose node has not been left.
-/

------------------------------------------------------------
-- Scopes Of A Node
------------------------------------------------------------

namespace ScopeAnalysis

namespace Node

/- What the scopes of a node are named after. -/
def scopeNames (node : Node) : List ScopeName :=
  match node.kind with
  | .classDecl decl => [.classBody decl.name]
  | .methodDecl decl => [.methodBody decl.signature]
  | .closedConditional conditional =>
      if conditional.hasElse then
        [ .elseBlock node.span.startLine node.span.endLine,
          .ifBlock node.span.startLine node.span.endLine ]
      else
        [.ifBlock node.span.startLine node.span.endLine]
  | .closedLoop =>
      [.whileBlock node.span.startLine node.span.endLine]
  | .fieldDecl _ => []
  | .varDef _ => []
  | .assignment _ => []
  | .openConditional => []
  | .openLoop => []
  | .block => []
  | .expression _ => []
  | .other => []

/- The scopes of a node, innermost first. -/
def scopes (node : Node) : List ScopeId :=
  node.scopeNames.map ScopeName.id

end Node

/- The kind of a method declaration. -/
def NodeKind.IsMethod (kind : NodeKind) : Prop :=
  ∃ decl, kind = .methodDecl decl

end ScopeAnalysis

------------------------------------------------------------
-- Opening
------------------------------------------------------------

namespace ScopeAnalysis

/- Declaring variables opens nothing. -/
theorem Registry.inner_afterOps_declare
    (r : Registry)
    (definition : VarDef)
    (span : Span)
    (names : List String) :
    (r.afterOps (names.map (definition.declare span))).inner =
      r.inner := by
  induction names generalizing r with
  | nil => rfl
  | cons name names ih =>
      rw [List.map_cons, afterOps_cons, ih]
      rfl

/- A node adds its scopes to a frame, unless it is a method. -/
theorem Frame.inner_enter
    (f : Frame)
    (node : Node) :
    (f.enter node).registry.inner =
        node.scopes ++ f.registry.inner ∨
      node.kind.IsMethod ∧
        (f.enter node).registry.inner =
          f.registry.inner := by
  rcases node with ⟨kind, span, children⟩
  cases kind with
  | methodDecl decl =>
      by_cases hTaken : decl.isTaken f.registry
      · right
        refine ⟨⟨decl, rfl⟩, ?_⟩
        simp only [enter, Node.openings, hTaken, if_true,
          List.append_nil]
        rfl
      · left
        simp only [enter, Node.openings, hTaken]
        rfl
  | varDef definition =>
      left
      simp only [enter, Node.openings, List.append_nil]
      exact f.registry.inner_afterOps_declare definition span
        definition.names
  | closedConditional conditional =>
      left
      simp only [enter, Node.openings, Node.scopes,
        Node.scopeNames]
      split
      · rfl
      · rfl
  | classDecl decl => exact .inl rfl
  | fieldDecl decl => exact .inl rfl
  | assignment assignment => exact .inl rfl
  | closedLoop => exact .inl rfl
  | openConditional => exact .inl rfl
  | openLoop => exact .inl rfl
  | block => exact .inl rfl
  | expression expr => exact .inl rfl
  | other => exact .inl rfl

namespace PassM

/- An action that is done has opened these scopes. -/
def Opens
    (action : PassM Unit)
    (p : Pass)
    (ids : List ScopeId) : Prop :=
  action.Ensures p
    (fun _ q => q.nesting.scopes = ids ++ p.nesting.scopes)
    (fun _ => True)

/- What has led to a frame has opened what it has open. -/
theorem LeadsTo.opens
    {action : PassM Unit}
    {p : Pass}
    {declarations : List RegistryOp}
    {f : Frame}
    (h : action.LeadsTo p declarations f)
    {ids : List ScopeId}
    (hInner :
      f.registry.inner = ids ++ p.registry.inner) :
    Opens action p ids := by
  refine h.mono ?_ (fun _ _ => trivial)
  intro _ q hq
  rw [← hq] at hInner
  exact hInner

/- A node opens its scopes, unless it is a method. -/
theorem opens_enterNode
    (node : Node)
    (p : Pass) :
    Opens (enterNode node) p node.scopes ∨
      node.kind.IsMethod ∧ Opens (enterNode node) p [] := by
  have hEnter := leadsTo_enterNode node p
  rcases p.frame.inner_enter node with
    hInner | ⟨hMethod, hInner⟩
  · exact .inl (hEnter.opens hInner)
  · exact .inr ⟨hMethod, hEnter.opens hInner⟩

end PassM

end ScopeAnalysis

------------------------------------------------------------
-- Opening At A Visit
------------------------------------------------------------

namespace ScopeAnalysis

namespace Visit

/- The scopes that a visit opens, innermost first. -/
def opened (v : Visit) : List ScopeId :=
  v.after.registry.inner.take
    (v.after.registry.inner.length -
      v.before.registry.inner.length)

theorem opened_of_opens
    {v : Visit}
    (hv : v.before.Writing)
    {ids : List ScopeId}
    (hOpens :
      PassM.Opens (PassM.enterNode v.node) v.before ids) :
    v.after.registry.inner =
        ids ++ v.before.registry.inner ∧
      v.opened = ids := by
  rcases (PassM.diagnosing_enterNode v.node).proceeds hv with
    ⟨_, q, hRun, _, _⟩
  have hAfter : v.after = q := by
    rw [after, hRun]
  rw [PassM.Opens, PassM.Ensures, hRun] at hOpens
  have hInner :
      v.after.registry.inner =
        ids ++ v.before.registry.inner := by
    rw [hAfter]
    exact hOpens
  refine ⟨hInner, ?_⟩
  simp [opened, hInner]

/- A visit opens the scopes of its node or nothing. -/
theorem opened_eq
    {v : Visit}
    (hv : v.before.Writing) :
    v.opened = v.node.scopes ∨
      v.node.kind.IsMethod ∧ v.opened = [] := by
  rcases PassM.opens_enterNode v.node v.before with
    h | ⟨hMethod, h⟩
  · exact .inl (opened_of_opens hv h).2
  · exact .inr ⟨hMethod, (opened_of_opens hv h).2⟩

/- What a visit opens comes on top of what was open. -/
theorem inner_after
    {v : Visit}
    (hv : v.before.Writing) :
    v.after.registry.inner =
      v.opened ++ v.before.registry.inner := by
  rcases PassM.opens_enterNode v.node v.before with
    h | ⟨_, h⟩
  · rw [(opened_of_opens hv h).1, (opened_of_opens hv h).2]
  · rw [(opened_of_opens hv h).1, (opened_of_opens hv h).2]

theorem writing_after
    {v : Visit}
    (hv : v.before.Writing) :
    v.after.Writing := by
  rcases (PassM.diagnosing_enterNode v.node).proceeds hv with
    ⟨_, q, hRun, hq, _⟩
  rw [after, hRun]
  exact hq

/- A visit that opens anything opens all that its node has. -/
theorem opened_of_ne_nil
    {v : Visit}
    (hv : v.before.Writing)
    (hOpens : v.opened ≠ []) :
    v.opened = v.node.scopes := by
  rcases opened_eq hv with h | ⟨_, h⟩
  · exact h
  · exact absurd h hOpens

theorem mem_scopes_of_mem_opened
    {v : Visit}
    (hv : v.before.Writing)
    {id : ScopeId}
    (hId : id ∈ v.opened) :
    id ∈ v.node.scopes := by
  rw [← opened_of_ne_nil hv (List.ne_nil_of_mem hId)]
  exact hId

end Visit

end ScopeAnalysis

------------------------------------------------------------
-- Visits Of A Tree
------------------------------------------------------------

namespace ScopeAnalysis

theorem visitsFrom_append
    (p : Pass)
    (first second : List Event) :
    visitsFrom p (first ++ second) =
      visitsFrom p first ++
        visitsFrom (p.afterEvents first) second := by
  induction first generalizing p with
  | nil => rfl
  | cons event events ih =>
      simp only [List.cons_append, visitsFrom, ih,
        List.append_assoc, Pass.afterEvents_cons]

/- The visits of a tree are its own and its children's. -/
theorem visitsFrom_events
    (node : Node)
    (p : Pass) :
    visitsFrom p node.events =
      ⟨node, p⟩ ::
        visitsFrom (Visit.after ⟨node, p⟩)
          (Node.eventsOfAll node.children) := by
  rcases node with ⟨kind, span, children⟩
  rw [Node.events, visitsFrom, visitsFrom_append]
  simp only [visitsFrom, Event.visitsAt, List.append_nil,
    List.singleton_append]
  rfl

/- After whole trees a pass has open what it had before. -/
theorem Pass.Writing.inner_afterEvents
    {p : Pass}
    (hp : p.Writing)
    (nodes : List Node) :
    (p.afterEvents
          (Node.eventsOfAll nodes)).registry.inner =
        p.registry.inner ∧
      (p.afterEvents (Node.eventsOfAll nodes)).Writing := by
  have hRun :=
    PassM.runOn_hearAll (PassM.diagnosing_hearAll nodes) hp
  have hNesting := PassM.ensures_walkAll_nesting nodes p
  rw [walkAll_eq_hearAll, PassM.Ensures, hRun.1] at hNesting
  exact ⟨congrArg Nesting.scopes hNesting, hRun.2⟩

theorem length_visitsFrom
    (p : Pass)
    (nodes : List Node) :
    (visitsFrom p (Node.eventsOfAll nodes)).length =
      (Node.preorderAll nodes).length := by
  rw [← entered_eventsOfAll, ← nodes_visitsFrom p,
    List.length_map]

/- An element of two lists in a row is in one of them. -/
theorem split_append
    {α : Type}
    {first second before after : List α}
    {x : α}
    (h : first ++ second = before ++ x :: after) :
    (∃ rest,
        first = before ++ x :: rest ∧
          after = rest ++ second) ∨
      ∃ front,
        before = first ++ front ∧
          second = front ++ x :: after := by
  rcases List.append_eq_append_iff.mp h with
    ⟨front, hBefore, hSecond⟩ | ⟨rest, hFirst, hRest⟩
  · exact .inr ⟨front, hBefore, hSecond⟩
  · cases rest with
    | nil =>
        refine .inr ⟨[], ?_, hRest.symm⟩
        rw [hFirst, List.append_nil, List.append_nil]
    | cons y rest =>
        rw [List.cons_append, List.cons.injEq] at hRest
        rcases hRest with ⟨rfl, hAfter⟩
        exact .inl ⟨rest, hFirst, hAfter⟩

/- Behind a node come its children and all that they hold. -/
theorem preorderAll_split :
    (nodes : List Node) →
      ∀ {before after : List Node} {node : Node},
        Node.preorderAll nodes = before ++ node :: after →
          Node.preorderAll node.children <+: after
| [], before, after, node, h => by
    rw [Node.preorderAll] at h
    simp at h
| ⟨kind, span, children⟩ :: nodes, before, after, node, h => by
    rw [Node.preorderAll, Node.preorder,
      List.cons_append] at h
    cases before with
    | nil =>
        rw [List.nil_append, List.cons.injEq] at h
        rcases h with ⟨rfl, rfl⟩
        exact List.prefix_append _ _
    | cons first before =>
        rw [List.cons_append, List.cons.injEq] at h
        rcases split_append h.2 with
          ⟨rest, hChildren, rfl⟩ | ⟨front, _, hNodes⟩
        · exact
            (preorderAll_split children hChildren).trans
              (List.prefix_append _ _)
        · exact preorderAll_split nodes hNodes

end ScopeAnalysis

------------------------------------------------------------
-- Open Scopes
------------------------------------------------------------

namespace ScopeAnalysis

/-
  Each scope that is open at a visit was open at the start,
  or has been opened by a visit from which on only nodes
  within its own have been visited.
-/
def Visit.OpenedAround
    (w : Visit)
    (base : List ScopeId)
    (before : List Visit) : Prop :=
  ∀ id ∈ w.before.registry.inner,
    id ∈ base ∨
      ∃ outer e between,
        before = outer ++ e :: between ∧
          between.length <
              (Node.preorderAll e.node.children).length ∧
            id ∈ e.opened

/- More visits in front are around a visit as well. -/
theorem Visit.OpenedAround.behind
    {w : Visit}
    {base : List ScopeId}
    {before : List Visit}
    (h : w.OpenedAround base before)
    (front : List Visit) :
    w.OpenedAround base (front ++ before) := by
  intro id hId
  rcases h id hId with
    hBase | ⟨outer, e, between, rfl, hInside, hOpened⟩
  · exact .inl hBase
  · refine
      .inr ⟨front ++ outer, e, between, ?_, hInside, hOpened⟩
    rw [List.append_assoc]

/- Around what a node contains is the node itself. -/
theorem Visit.OpenedAround.inside
    {u w : Visit}
    {before : List Visit}
    (h : w.OpenedAround u.after.registry.inner before)
    (hu : u.before.Writing)
    (hInside :
      before.length <
        (Node.preorderAll u.node.children).length) :
    w.OpenedAround u.before.registry.inner (u :: before) := by
  intro id hId
  rcases h id hId with hBase | hAround
  · rw [inner_after hu] at hBase
    rcases List.mem_append.mp hBase with hOpened | hOuter
    · exact .inr ⟨[], u, before, rfl, hInside, hOpened⟩
    · exact .inl hOuter
  · rcases hAround with
      ⟨outer, e, between, rfl, hWithin, hOpened⟩
    exact .inr ⟨u :: outer, e, between, rfl, hWithin, hOpened⟩

/- An open scope has been opened by a node around. -/
theorem openedAround_visitsFrom :
    (nodes : List Node) →
      ∀ {p : Pass} {before after : List Visit} {w : Visit},
        p.Writing →
          visitsFrom p (Node.eventsOfAll nodes) =
              before ++ w :: after →
            w.OpenedAround p.registry.inner before
| [], p, before, after, w, _, h => by
    rw [Node.eventsOfAll, visitsFrom] at h
    simp at h
| ⟨kind, span, children⟩ :: nodes, p, before, after, w, hp,
    h => by
    have hTree := hp.inner_afterEvents
      [⟨kind, span, children⟩]
    rw [Node.eventsOfAll, Node.eventsOfAll,
      List.append_nil] at hTree
    rw [Node.eventsOfAll, visitsFrom_append,
      visitsFrom_events, List.cons_append] at h
    cases before with
    | nil =>
        rw [List.nil_append, List.cons.injEq] at h
        rw [← h.1]
        exact fun id hId => .inl hId
    | cons u before =>
        rw [List.cons_append, List.cons.injEq] at h
        rcases h with ⟨rfl, h⟩
        rcases split_append h with
          ⟨rest, hChildren, _⟩ | ⟨front, rfl, hNodes⟩
        · have hLength :=
            length_visitsFrom
              (Visit.after ⟨⟨kind, span, children⟩, p⟩)
              children
          rw [hChildren, List.length_append,
            List.length_cons] at hLength
          have hAround :=
            openedAround_visitsFrom children
              (Visit.writing_after hp) hChildren
          exact hAround.inside hp (by simp only; omega)
        · have hAround :=
            openedAround_visitsFrom nodes hTree.2 hNodes
          rw [hTree.1] at hAround
          exact hAround.behind
            (⟨⟨kind, span, children⟩, p⟩ :: _)

end ScopeAnalysis
