import ScopeAnalysis.Traversal

/-
  Entering and leaving nodes at their places.

  Key definitions include:
    * `Node.at?`
    * `Program.at?`
    * `Passage`
    * `Program.passages`
    * `Passage.Bracketed`

  Key theorems include:
    * `Node.event_passagesFrom`
    * `Program.bracketed_passages`
    * `Program.mem_passages_iff`

  Nodes that look alike can stand at several places of a
  program, and an event does not tell which of them it is
  about.  A passage is an event together with that place,
  given as a path from the program down to the node.
-/

------------------------------------------------------------
-- Paths
------------------------------------------------------------

namespace ScopeAnalysis

/- The node that a path leads to from a node above it. -/
def Node.at? : Node → List Nat → Option Node
| node, [] => some node
| node, i :: path =>
    match node.children[i]? with
    | none => none
    | some child => child.at? path

/- The node that a path leads to from one of some nodes. -/
def Node.among? (nodes : List Node) : List Nat → Option Node
| [] => none
| i :: path => nodes[i]?.bind fun node => node.at? path

/- The node that a path leads to in a program. -/
def Program.at?
    (program : Program)
    (path : List Nat) : Option Node :=
  Node.among? program.items path

/- Entering or leaving a node at a place. -/
inductive Passage where
| entered (path : List Nat) (node : Node)
| left (path : List Nat) (node : Node)

namespace Passage

/- The place of a passage. -/
def path : Passage → List Nat
| .entered path _ => path
| .left path _ => path

/- The node that is entered or left. -/
def node : Passage → Node
| .entered _ node => node
| .left _ node => node

/- A passage without its place. -/
def event : Passage → Event
| .entered _ node => .nodeEntered node
| .left _ node => .nodeLeft node

/- The same passage, told from one node further up. -/
def within
    (i : Nat) : Passage → Passage
| .entered path node => .entered (i :: path) node
| .left path node => .left (i :: path) node

@[simp] theorem path_within
    (i : Nat)
    (x : Passage) :
    (x.within i).path = i :: x.path := by
  cases x <;> rfl

@[simp] theorem node_within
    (i : Nat)
    (x : Passage) :
    (x.within i).node = x.node := by
  cases x <;> rfl

@[simp] theorem event_within
    (i : Nat)
    (x : Passage) :
    (x.within i).event = x.event := by
  cases x <;> rfl

end Passage

namespace Node

mutual

/- The passages of a tree in order. -/
def passages : Node → List Passage
| ⟨kind, span, children⟩ =>
    .entered [] ⟨kind, span, children⟩ ::
      (passagesFrom 0 children ++
        [.left [] ⟨kind, span, children⟩])

/- The passages of trees with numbers from a first one on. -/
def passagesFrom (first : Nat) : List Node → List Passage
| [] => []
| node :: nodes =>
    node.passages.map (Passage.within first) ++
      passagesFrom (first + 1) nodes

end

end Node

/- The passages of a program's nodes in order. -/
def Program.passages (program : Program) : List Passage :=
  Node.passagesFrom 0 program.items

mutual

/- Passages are the events of a tree with their places. -/
theorem Node.event_passages :
    (node : Node) →
      node.passages.map Passage.event = node.events
| ⟨kind, span, children⟩ => by
    rw [Node.passages, Node.events, List.map_cons,
      List.map_append, Node.event_passagesFrom children]
    rfl

theorem Node.event_passagesFrom
    {first : Nat} :
    (nodes : List Node) →
      (Node.passagesFrom first nodes).map Passage.event =
        Node.eventsOfAll nodes
| [] => by
    rw [Node.passagesFrom, Node.eventsOfAll, List.map_nil]
| node :: nodes => by
    rw [Node.passagesFrom, Node.eventsOfAll,
      List.map_append, List.map_map,
      Node.event_passagesFrom nodes,
      ← Node.event_passages node]
    simp

end

end ScopeAnalysis

------------------------------------------------------------
-- Places Of Passages
------------------------------------------------------------

namespace ScopeAnalysis

namespace Node

theorem at?_cons
    (node : Node)
    (i : Nat)
    (path : List Nat) :
    node.at? (i :: path) =
      among? node.children (i :: path) := by
  rw [at?, among?]
  cases node.children[i]? <;> rfl

mutual

/- The place of a passage is where its node stands. -/
theorem at?_of_mem_passages :
    (node : Node) →
      ∀ x ∈ node.passages, node.at? x.path = some x.node
| ⟨kind, span, children⟩ => by
    intro x hx
    rw [passages] at hx
    simp only [List.mem_cons, List.mem_append,
      List.not_mem_nil, or_false] at hx
    rcases hx with rfl | hx | rfl
    · rfl
    · rcases among?_of_mem_passagesFrom children x hx with
        ⟨i, path, hPath, hNode⟩
      rw [hPath, Nat.zero_add, at?_cons]
      exact hNode
    · rfl

theorem among?_of_mem_passagesFrom
    {first : Nat} :
    (nodes : List Node) →
      ∀ x ∈ passagesFrom first nodes,
        ∃ i path,
          x.path = (first + i) :: path ∧
            among? nodes (i :: path) = some x.node
| [] => by
    intro x hx
    rw [passagesFrom] at hx
    cases hx
| node :: nodes => by
    intro x hx
    rw [passagesFrom] at hx
    rcases List.mem_append.mp hx with hHere | hLater
    · rcases List.mem_map.mp hHere with ⟨y, hy, rfl⟩
      have hNode := at?_of_mem_passages node y hy
      refine ⟨0, y.path, y.path_within first, ?_⟩
      rw [y.node_within]
      exact hNode
    · rcases among?_of_mem_passagesFrom nodes x hLater with
        ⟨i, path, hPath, hNode⟩
      refine ⟨i + 1, path, ?_, hNode⟩
      rw [hPath, Nat.add_assoc, Nat.add_comm 1 i]

end

/- Trees with other numbers have passages elsewhere. -/
theorem not_prefix_of_mem_passagesFrom
    {first i : Nat}
    {nodes : List Node}
    (h : i < first)
    {x : Passage}
    (hx : x ∈ passagesFrom first nodes)
    (path : List Nat) :
    ¬ i :: path <+: x.path := by
  rcases among?_of_mem_passagesFrom nodes x hx with
    ⟨j, rest, hPath, _⟩
  rw [hPath, List.cons_prefix_cons]
  omega

end Node

end ScopeAnalysis

------------------------------------------------------------
-- Bracketing
------------------------------------------------------------

namespace ScopeAnalysis

/-
  A node is entered once and left once at its place, and what
  happens in between is just what happens further down.
-/
def Passage.Bracketed
    (passages : List Passage)
    (path : List Nat)
    (node : Node) : Prop :=
  ∃ before inside after,
    passages =
        before ++
          .entered path node ::
            (inside ++ .left path node :: after) ∧
      (∀ x ∈ inside,
          path <+: x.path ∧ x.path ≠ path) ∧
        ∀ x ∈ before ++ after, ¬ path <+: x.path

namespace Passage

variable {passages : List Passage}
variable {path : List Nat}
variable {node : Node}

/- Brackets stay when all is told from further up. -/
theorem Bracketed.within
    (h : Bracketed passages path node)
    (i : Nat) :
    Bracketed (passages.map (Passage.within i)) (i :: path)
      node := by
  rcases h with
    ⟨before, inside, after, rfl, hInside, hOutside⟩
  refine
    ⟨before.map (Passage.within i),
      inside.map (Passage.within i),
      after.map (Passage.within i), ?_, ?_, ?_⟩
  · simp [Passage.within]
  · intro x hx
    rcases List.mem_map.mp hx with ⟨y, hy, rfl⟩
    rcases hInside y hy with ⟨hPrefix, hProper⟩
    simp only [path_within, List.cons_prefix_cons, hPrefix,
      true_and, ne_eq, List.cons.injEq, hProper,
      not_false_eq_true, and_self]
  · intro x hx
    rw [← List.map_append] at hx
    rcases List.mem_map.mp hx with ⟨y, hy, rfl⟩
    simpa [List.cons_prefix_cons] using hOutside y hy

/- Brackets stay amid passages of other places. -/
theorem Bracketed.amid
    (h : Bracketed passages path node)
    {front back : List Passage}
    (hOther : ∀ x ∈ front ++ back, ¬ path <+: x.path) :
    Bracketed (front ++ (passages ++ back)) path node := by
  rcases h with
    ⟨before, inside, after, rfl, hInside, hOutside⟩
  refine
    ⟨front ++ before, inside, after ++ back, ?_, hInside,
      ?_⟩
  · simp
  · intro x hx
    simp only [List.mem_append] at hx hOther hOutside
    rcases hx with (hFront | hBefore) | (hAfter | hBack)
    · exact hOther x (.inl hFront)
    · exact hOutside x (.inl hBefore)
    · exact hOutside x (.inr hAfter)
    · exact hOther x (.inr hBack)

/- Both brackets are among the passages. -/
theorem Bracketed.mem
    (h : Bracketed passages path node) :
    .entered path node ∈ passages ∧
      .left path node ∈ passages := by
  rcases h with ⟨before, inside, after, rfl, _, _⟩
  simp

/- Passages of other places are left out. -/
theorem filter_path_eq_nil
    {xs : List Passage}
    (h : ∀ x ∈ xs, x.path ≠ path) :
    xs.filter (fun x => x.path = path) = [] := by
  rw [List.filter_eq_nil_iff]
  intro x hx hPath
  exact h x hx (of_decide_eq_true hPath)

/- No other passage is at the place of the brackets. -/
theorem Bracketed.filter_eq
    (h : Bracketed passages path node) :
    passages.filter (fun x => x.path = path) =
      [.entered path node, .left path node] := by
  rcases h with
    ⟨before, inside, after, rfl, hInside, hOutside⟩
  have hElsewhere :
      ∀ x ∈ before ++ after, x.path ≠ path := by
    intro x hx hPath
    exact hOutside x hx (hPath ▸ List.prefix_refl _)
  rw [List.forall_mem_append] at hElsewhere
  rw [List.filter_append, filter_path_eq_nil hElsewhere.1,
    List.filter_cons_of_pos (by simp [Passage.path]),
    List.filter_append,
    filter_path_eq_nil fun x hx => (hInside x hx).2,
    List.filter_cons_of_pos (by simp [Passage.path]),
    filter_path_eq_nil hElsewhere.2]
  rfl

end Passage

namespace Node

/- The passages of one tree among those of several. -/
theorem passagesFrom_split
    {nodes : List Node}
    {i : Nat}
    {node : Node}
    (h : nodes[i]? = some node)
    (first : Nat) :
    ∃ front back,
      passagesFrom first nodes =
          front ++
            (node.passages.map
                (Passage.within (first + i)) ++
              back) ∧
        ∀ x ∈ front ++ back,
          ∀ path, ¬ (first + i) :: path <+: x.path := by
  induction nodes generalizing first i with
  | nil => simp at h
  | cons other nodes ih =>
      cases i with
      | zero =>
          cases h
          refine
            ⟨[], passagesFrom (first + 1) nodes, ?_, ?_⟩
          · rw [passagesFrom]
            rfl
          · intro x hx
            exact not_prefix_of_mem_passagesFrom
              (Nat.lt_succ_self first) hx
      | succ i =>
          rcases ih h (first + 1) with
            ⟨front, back, hSplit, hOther⟩
          have hNumber : first + 1 + i = first + (i + 1) := by
            omega
          rw [hNumber] at hSplit hOther
          refine
            ⟨other.passages.map (Passage.within first) ++
              front, back, ?_, ?_⟩
          · rw [passagesFrom, hSplit, List.append_assoc]
          · intro x hx path
            rw [List.append_assoc] at hx
            rcases List.mem_append.mp hx with hFirst | hRest
            · rcases List.mem_map.mp hFirst with
                ⟨y, _, rfl⟩
              rw [Passage.path_within, List.cons_prefix_cons]
              omega
            · exact hOther x hRest path

/- Brackets within one tree are brackets among several. -/
theorem bracketed_passagesFrom
    {nodes : List Node}
    {i : Nat}
    {node target : Node}
    {path : List Nat}
    (hNode : nodes[i]? = some node)
    (hTarget :
      Passage.Bracketed node.passages path target) :
    Passage.Bracketed (passagesFrom 0 nodes) (i :: path)
      target := by
  rcases passagesFrom_split hNode 0 with
    ⟨front, back, hSplit, hOther⟩
  rw [Nat.zero_add] at hSplit hOther
  rw [hSplit]
  exact (hTarget.within i).amid fun x hx => hOther x hx path

/- Every node below a node is bracketed at its place. -/
theorem bracketed_passages
    {node target : Node}
    {path : List Nat}
    (h : node.at? path = some target) :
    Passage.Bracketed node.passages path target := by
  induction path generalizing node with
  | nil =>
      rw [at?, Option.some.injEq] at h
      subst h
      rcases node with ⟨kind, span, children⟩
      refine
        ⟨[], passagesFrom 0 children, [], ?_, ?_, by simp⟩
      · rw [passages, List.nil_append]
      · intro x hx
        rcases among?_of_mem_passagesFrom children x hx with
          ⟨i, rest, hPath, _⟩
        simp [hPath]
  | cons i path ih =>
      rcases node with ⟨kind, span, children⟩
      rw [at?_cons, among?, Option.bind_eq_some_iff] at h
      rcases h with ⟨child, hChild, hTarget⟩
      have hChildren :=
        bracketed_passagesFrom hChild (ih hTarget)
      rw [passages, ← List.singleton_append]
      apply hChildren.amid
      intro x hx
      simp only [List.mem_append, List.mem_singleton] at hx
      rcases hx with rfl | rfl
      · simp [Passage.path]
      · simp [Passage.path]

end Node

namespace Program

/- Every node of a program is bracketed at its place. -/
theorem bracketed_passages
    {program : Program}
    {path : List Nat}
    {node : Node}
    (h : program.at? path = some node) :
    Passage.Bracketed program.passages path node := by
  cases path with
  | nil => cases h
  | cons i path =>
      rw [at?, Node.among?, Option.bind_eq_some_iff] at h
      rcases h with ⟨item, hItem, hNode⟩
      exact Node.bracketed_passagesFrom hItem
        (Node.bracketed_passages hNode)

/- The passages of a program are those of its nodes. -/
theorem mem_passages_iff
    {program : Program}
    {x : Passage} :
    x ∈ program.passages ↔
      program.at? x.path = some x.node := by
  constructor
  · intro hx
    rcases Node.among?_of_mem_passagesFrom _ x hx with
      ⟨i, path, hPath, hNode⟩
    rw [at?, hPath, Nat.zero_add]
    exact hNode
  · intro hNode
    have hBoth := (bracketed_passages hNode).mem
    cases x with
    | entered path node => exact hBoth.1
    | left path node => exact hBoth.2

end Program

end ScopeAnalysis
