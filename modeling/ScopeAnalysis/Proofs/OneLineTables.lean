import ScopeAnalysis.Proofs.Hearing
import ScopeAnalysis.Proofs.OneLine
import ScopeAnalysis.Proofs.ScopeRoots

/-
  Registries whose texts are on one line.

  Key definitions include:
    * `RegistryOp.OneLine`
    * `Registry.OneLine`

  Key theorems include:
    * `Registry.OneLine.name`
    * `Registry.OneLine.symbol`
    * `Report.oneLine_lines`
    * `Node.OneLine.declarations`
    * `Node.OneLine.openings`
    * `Program.OneLine.lastFrame`

  What a registry lists was brought by the history behind
  it.  A program whose texts hold no line feed brings none,
  as keys, aliases and names of scopes add nothing but fixed
  words and numbers.  So every line of the report is one.
-/

------------------------------------------------------------
-- Histories
------------------------------------------------------------

namespace ScopeAnalysis

/- A use of a registry that brings no line feed. -/
def RegistryOp.OneLine : RegistryOp → Prop
| .enter id => Text.OneLine id.text
| .exit => True
| .declare scope key symbol _ =>
    Text.OneLine scope.text ∧
      Text.OneLine key ∧ symbol.Lacks '\n'
| .declareHere key symbol _ =>
    Text.OneLine key ∧ symbol.Lacks '\n'

namespace Registry

/- A registry with a history that brings no line feed. -/
def OneLine (r : Registry) : Prop :=
  ∃ ops,
    r = initial.afterOps ops ∧ ∀ op ∈ ops, op.OneLine

theorem oneLine_initial : initial.OneLine :=
  ⟨[], rfl, fun _ hOp => (List.not_mem_nil hOp).elim⟩

theorem OneLine.afterOps
    {r : Registry}
    (h : r.OneLine)
    {ops : List RegistryOp}
    (hOps : ∀ op ∈ ops, op.OneLine) :
    (r.afterOps ops).OneLine := by
  rcases h with ⟨earlier, rfl, hEarlier⟩
  refine ⟨earlier ++ ops, (afterOps_append _ _ _).symm, ?_⟩
  intro op hOp
  rcases List.mem_append.mp hOp with hOld | hNew
  · exact hEarlier op hOld
  · exact hOps op hNew

theorem OneLine.exit
    {r : Registry}
    (h : r.OneLine) :
    r.exit.2.OneLine := by
  have hOps : ∀ op ∈ [RegistryOp.exit], op.OneLine :=
    List.forall_mem_singleton.mpr trivial
  exact h.afterOps hOps

/- Discovered names were named in the history. -/
theorem OneLine.name
    {r : Registry}
    (h : r.OneLine)
    {id : ScopeId}
    (hId : id ∈ r.discoveryOrder) :
    Text.OneLine id.text := by
  rcases h with ⟨ops, rfl, hOps⟩
  rcases Discovers.initial.mem_afterOps ops hId with
    hGlobal | hNamed
  · rw [List.mem_singleton.mp hGlobal]
    decide
  · rcases List.mem_flatMap.mp hNamed with ⟨op, hOp, hIn⟩
    have hLine := hOps op hOp
    cases op with
    | enter other =>
        rw [List.mem_singleton.mp hIn]
        exact hLine
    | exit => cases hIn
    | declare scope key symbol position =>
        rw [List.mem_singleton.mp hIn]
        exact hLine.1
    | declareHere key symbol position => cases hIn

end Registry

/- An alias adds numbers to the key that it is made from. -/
theorem SpelledFrom.oneLine
    {base key : String}
    (h : SpelledFrom base key)
    (hBase : Text.OneLine base) :
    Text.OneLine key := by
  cases h with
  | bare => exact hBase
  | placed line column =>
      simp +decide only [Text.lacks_append, hBase,
        Text.oneLine_toString]
  | counted line column counter hCounter =>
      simp +decide only [Text.lacks_append, hBase,
        Text.oneLine_toString]

namespace Registry

/- Stored symbols were declared in the history. -/
theorem OneLine.symbol
    {r : Registry}
    (h : r.OneLine)
    {scope : ScopeId}
    {key : String}
    {symbol : Symbol}
    (hFound : r.lookup scope key = some symbol) :
    Text.OneLine key ∧ symbol.Lacks '\n' := by
  rcases h with ⟨ops, rfl, hOps⟩
  rcases ((stores_afterOps ops).lookup_iff _ _ _).mp hFound
    with ⟨c, hc, hPlace, rfl⟩
  have hSpelled := spelledFrom_of_mem_calls hc
  rw [hPlace] at hSpelled
  rcases exists_callsOf_of_mem_calls hc with
    ⟨op, hOp, s, hs⟩
  have hLine := hOps op hOp
  have hCall :
      Text.OneLine c.key ∧ c.symbol.Lacks '\n' := by
    cases op with
    | enter id => cases hs
    | exit => cases hs
    | declare scope key symbol position =>
        rw [List.mem_singleton.mp hs]
        exact hLine.2
    | declareHere key symbol position =>
        rw [List.mem_singleton.mp hs]
        exact hLine
  exact ⟨hSpelled.oneLine hCall.1, hCall.2⟩

end Registry

namespace Report

/- What a section lists was found in the registry. -/
theorem lookup_of_mem_listed
    {r : Registry}
    {scope : ScopeId × ScopeTable}
    (hScope : scope ∈ r.scopes.entries)
    {entry : String × Symbol}
    (hEntry : entry ∈ listed scope.1 scope.2) :
    r.lookup scope.1 entry.1 = some entry.2 := by
  have hFound :=
    ((lists_listed scope.1 scope.2).mem_iff
      entry.1 entry.2).mp hEntry
  exact Registry.lookup_of_mem_entries hScope
    (scope.2.mem_entries_iff.mpr hFound.1)

/- The report on such a registry has no line feed inside. -/
theorem oneLine_lines
    {r : Registry}
    (h : r.OneLine)
    {source : String}
    (hSource : Text.OneLine source) :
    ∀ line ∈ lines source r, Text.OneLine line := by
  intro line hLine
  rw [lines] at hLine
  rcases List.mem_cons.mp hLine with rfl | hSection
  · unfold header
    simp +decide only [Text.lacks_append, hSource]
  · rcases List.mem_flatMap.mp hSection with
      ⟨scope, hScope, hIn⟩
    have hName : Text.OneLine scope.1.text :=
      h.name (List.mem_map_of_mem hScope)
    rw [sectionLines, entryLines_eq, List.mem_append,
      List.mem_cons, List.mem_append] at hIn
    rcases hIn with (rfl | hBanner | hEntry) | hDivider
    · unfold sectionHeader
      simp +decide only [Text.lacks_append, hName]
    · rw [List.mem_ite_nil_right, List.mem_singleton]
        at hBanner
      rw [hBanner.2]
      decide
    · rcases List.mem_map.mp hEntry with ⟨entry, hIn, rfl⟩
      have hEntry :=
        h.symbol (lookup_of_mem_listed hScope hIn)
      exact oneLine_entryLine scope.1 hEntry.1 hEntry.2
    · rw [List.mem_singleton.mp hDivider]
      decide

end Report

end ScopeAnalysis

------------------------------------------------------------
-- Nodes
------------------------------------------------------------

namespace ScopeAnalysis

namespace MethodDecl

/- Parameters are named and typed by what was captured. -/
theorem mem_of_mem_formals
    {m : MethodDecl}
    {p : Parameter}
    (hp : p ∈ m.formals) :
    p.name ∈ m.identifiers ∧ p.type ∈ m.paramTypes := by
  unfold formals at hp
  split at hp
  · rcases List.mem_map.mp hp with ⟨entry, hEntry, rfl⟩
    have hPair :
        (entry.1.1, entry.1.2) ∈
          (m.identifiers.drop 1).zip m.paramTypes :=
      List.fst_mem_of_mem_zipIdx hEntry
    rcases List.of_mem_zip hPair with ⟨hName, hType⟩
    exact ⟨List.mem_of_mem_drop hName, hType⟩
  · cases hp

theorem oneLine_formals
    {m : MethodDecl}
    (h : ∀ text ∈ m.texts, Text.OneLine text) :
    ∀ p ∈ m.formals, p.Lacks '\n' := by
  intro p hp
  rcases mem_of_mem_formals hp with ⟨hName, hType⟩
  exact
    { name := h _ (by simp [texts, hName])
      type := h _ (by simp [texts, hType]) }

theorem oneLine_signature
    {m : MethodDecl}
    (h : ∀ text ∈ m.texts, Text.OneLine text) :
    Text.OneLine m.signature := by
  have hName : Text.OneLine m.name :=
    h _ (by simp [texts])
  have hTypes :
      ∀ type ∈ m.formals.map Parameter.type,
        Text.OneLine type := by
    intro type hType
    rcases List.mem_map.mp hType with ⟨p, hp, rfl⟩
    exact (oneLine_formals h p hp).type
  have hJoined :
      Text.OneLine
        (String.intercalate ","
          (m.formals.map Parameter.type)) :=
    Text.lacks_intercalate (by decide) hTypes
  unfold signature methodSignature
  simp +decide only [Text.lacks_append, hName, hJoined]

end MethodDecl

/- The name of a block is made of a word and numbers. -/
theorem ScopeId.oneLine_ofBlock
    {word : String}
    (h : Text.OneLine word)
    (startLine endLine : Nat) :
    Text.OneLine (ofBlock word startLine endLine).text := by
  unfold ofBlock
  simp +decide only [Text.lacks_append, h,
    Text.oneLine_toString]

namespace Symbol

/- The symbol of a block shows nothing but its name. -/
theorem oneLine_ofBlock
    (kind : SymbolKind)
    {name : String}
    (hName : Text.OneLine name)
    (line : Nat) :
    (ofBlock kind name line).Lacks '\n' where
  name := hName
  type := by simp [ofBlock, bare]
  access := by simp [ofBlock, bare]
  inherits := by simp [ofBlock, bare]
  parameters := by simp [ofBlock, bare]

/- The access modifier that a symbol shows. -/
theorem oneLine_access
    {access : Option String}
    (h : ∀ text ∈ access, Text.OneLine text) :
    ∀ text ∈ some (access.getD defaultAccess),
      Text.OneLine text := by
  rintro _ ⟨⟩
  cases access with
  | none => decide
  | some text => exact h text rfl

theorem oneLine_ofClass
    {decl : ClassDecl}
    (h : ∀ text ∈ decl.texts, Text.OneLine text) :
    (ofClass decl.name decl.access decl.parent).Lacks
      '\n' where
  name := h decl.name List.mem_cons_self
  type := by simp [ofClass, bare]
  access :=
    oneLine_access fun text hText =>
      h _ (by simp_all [ClassDecl.texts])
  inherits := by
    intro text hText
    rcases Option.mem_map.mp hText with ⟨parent, hParent, rfl⟩
    have hLine : Text.OneLine parent :=
      h _ (by simp_all [ClassDecl.texts])
    exact Text.lacks_append.mpr ⟨by decide, hLine⟩
  parameters := by simp [ofClass, bare]

theorem oneLine_ofField
    {decl : FieldDecl}
    (h : ∀ text ∈ decl.texts, Text.OneLine text) :
    (ofField decl.name decl.type decl.access).Lacks
      '\n' where
  name := h decl.name List.mem_cons_self
  type := by
    rintro _ ⟨⟩
    exact h _ (by simp [FieldDecl.texts])
  access :=
    oneLine_access fun text hText =>
      h _ (by simp_all [FieldDecl.texts])
  inherits := by simp [ofField, bare]
  parameters := by simp [ofField, bare]

theorem oneLine_ofMethod
    {decl : MethodDecl}
    (h : ∀ text ∈ decl.texts, Text.OneLine text) :
    (ofMethod decl.name decl.returnType decl.access
      decl.formals).Lacks '\n' where
  name := h decl.name List.mem_cons_self
  type := by
    rintro _ ⟨⟩
    exact h _ (by simp [MethodDecl.texts])
  access :=
    oneLine_access fun text hText =>
      h _ (by simp_all [MethodDecl.texts])
  inherits := by simp [ofMethod, bare]
  parameters := MethodDecl.oneLine_formals h

theorem oneLine_ofVariable
    {name : String}
    (hName : Text.OneLine name)
    (line : Nat)
    (length : Option Nat) :
    Lacks '\n'
      { ofVariable name line with
        arrayLength := length } where
  name := hName
  type := by simp [ofVariable, bare]
  access := by simp [ofVariable, bare]
  inherits := by simp [ofVariable, bare]
  parameters := by simp [ofVariable, bare]

end Symbol

namespace Node

theorem oneLine_blockDeclarations
    {id : ScopeId}
    {key : String}
    (hId : Text.OneLine id.text)
    (hKey : Text.OneLine key)
    (kind : SymbolKind)
    (span : Span) :
    ∀ op ∈ blockDeclarations id key kind span,
      op.OneLine := by
  rw [blockDeclarations, List.forall_mem_cons,
    List.forall_mem_singleton]
  exact
    ⟨hId, hId, hKey, Symbol.oneLine_ofBlock kind hId _⟩

variable {node : Node}

/- A node declares what its texts are made of. -/
theorem OneLine.declarations
    (h : node.OneLine) :
    ∀ op ∈ node.declarations, op.OneLine := by
  unfold OneLine at h
  unfold Node.declarations
  cases hKind : node.kind with
  | classDecl decl =>
      rw [hKind] at h
      have hName : Text.OneLine decl.name :=
        h _ List.mem_cons_self
      exact List.forall_mem_singleton.mpr
        ⟨by decide,
          Text.lacks_append.mpr ⟨by decide, hName⟩,
          Symbol.oneLine_ofClass h⟩
  | fieldDecl decl =>
      rw [hKind] at h
      have hName : Text.OneLine decl.name :=
        h _ List.mem_cons_self
      exact List.forall_mem_singleton.mpr
        ⟨Text.lacks_append.mpr ⟨by decide, hName⟩,
          Symbol.oneLine_ofField h⟩
  | methodDecl decl =>
      rw [hKind] at h
      exact List.forall_mem_singleton.mpr
        ⟨Text.lacks_append.mpr
            ⟨by decide, MethodDecl.oneLine_signature h⟩,
          Symbol.oneLine_ofMethod h⟩
  | varDef definition =>
      rw [hKind] at h
      intro op hOp
      rcases List.mem_map.mp hOp with ⟨name, hMem, rfl⟩
      have hName : Text.OneLine name :=
        h _ (List.mem_append_left _ hMem)
      exact
        ⟨Text.lacks_append.mpr ⟨by decide, hName⟩,
          Symbol.oneLine_ofVariable hName _ _⟩
  | closedConditional conditional =>
      exact
        oneLine_blockDeclarations
          (ScopeId.oneLine_ofBlock (by decide) _ _)
          (by decide) _ _
  | closedLoop =>
      exact
        oneLine_blockDeclarations
          (ScopeId.oneLine_ofBlock (by decide) _ _)
          (by decide) _ _
  | assignment assigned => exact List.forall_mem_nil _
  | openConditional => exact List.forall_mem_nil _
  | openLoop => exact List.forall_mem_nil _
  | block => exact List.forall_mem_nil _
  | expression expr => exact List.forall_mem_nil _
  | other => exact List.forall_mem_nil _

/- The scopes that a node opens are named after its texts. -/
theorem OneLine.openings
    (h : node.OneLine)
    (r : Registry) :
    ∀ op ∈ node.openings r, op.OneLine := by
  unfold OneLine at h
  unfold Node.openings
  cases hKind : node.kind with
  | classDecl decl =>
      rw [hKind] at h
      have hName : Text.OneLine decl.name :=
        h _ List.mem_cons_self
      exact List.forall_mem_singleton.mpr
        (Text.lacks_append.mpr ⟨by decide, hName⟩)
  | methodDecl decl =>
      rw [hKind] at h
      simp only
      split
      · exact List.forall_mem_nil _
      · exact List.forall_mem_singleton.mpr
          (Text.lacks_append.mpr
            ⟨by decide, MethodDecl.oneLine_signature h⟩)
  | closedConditional conditional =>
      simp only
      split
      · exact List.forall_mem_singleton.mpr
          (ScopeId.oneLine_ofBlock (by decide) _ _)
      · exact List.forall_mem_nil _
  | fieldDecl decl => exact List.forall_mem_nil _
  | varDef definition => exact List.forall_mem_nil _
  | assignment assigned => exact List.forall_mem_nil _
  | closedLoop => exact List.forall_mem_nil _
  | openConditional => exact List.forall_mem_nil _
  | openLoop => exact List.forall_mem_nil _
  | block => exact List.forall_mem_nil _
  | expression expr => exact List.forall_mem_nil _
  | other => exact List.forall_mem_nil _

end Node

end ScopeAnalysis

------------------------------------------------------------
-- Frames
------------------------------------------------------------

namespace ScopeAnalysis

namespace Frame

/- Entering a node brings no line feed but the node's. -/
theorem oneLine_enter
    {f : Frame}
    (h : f.registry.OneLine)
    {node : Node}
    (hNode : node.OneLine) :
    (f.enter node).registry.OneLine := by
  apply h.afterOps
  intro op hOp
  rcases List.mem_append.mp hOp with hDeclared | hOpened
  · exact hNode.declarations op hDeclared
  · exact hNode.openings f.registry op hOpened

/- Events bring no line feed but those of their nodes. -/
theorem oneLine_afterEvents
    {f : Frame}
    (h : f.registry.OneLine)
    {events : List Event}
    (hEvents :
      ∀ node ∈ events.filterMap Event.entered?,
        node.OneLine) :
    (f.afterEvents events).registry.OneLine := by
  induction events generalizing f with
  | nil => exact h
  | cons event events ih =>
      cases event with
      | nodeEntered node =>
          rcases List.forall_mem_cons.mp hEvents with
            ⟨hNode, hRest⟩
          exact ih (oneLine_enter h hNode) hRest
      | nodeLeft node =>
          exact ih
            (keeps_leave (fun _ hr => hr.exit) h node)
            hEvents
      | programEntered program => exact ih h hEvents
      | programLeft program => exact ih h hEvents

end Frame

/- The registry that a program on one line leads to. -/
theorem Program.OneLine.lastFrame
    {program : Program}
    (h : program.OneLine) :
    program.lastFrame.registry.OneLine := by
  apply Frame.oneLine_afterEvents Registry.oneLine_initial
  rw [entered_eventsOfAll]
  exact h.nodes

end ScopeAnalysis
