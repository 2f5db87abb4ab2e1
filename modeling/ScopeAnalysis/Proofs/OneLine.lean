import ScopeAnalysis.Proofs.CallChecks
import ScopeAnalysis.Proofs.LackingMarks
import ScopeAnalysis.Proofs.Padding
import ScopeAnalysis.Proofs.ReportSections

/-
  Texts on one line.

  Key definitions include:
    * `Text.OneLine`
    * `NodeKind.texts`
    * `Program.OneLine`
    * `Diagnostic.shown`

  Key theorems include:
    * `Symbol.Lacks.oneLine_text`
    * `Report.oneLine_entryLine`
    * `Diagnostic.oneLine_message`
    * `Node.OneLine.violations`

  A program whose texts hold no line feed gives rise to
  messages and to entries without any.  All that is written
  is made of texts of the program, of numbers and of words
  that are fixed.
-/

------------------------------------------------------------
-- Lines
------------------------------------------------------------

namespace ScopeAnalysis

namespace Text

/- A text without a line feed. -/
abbrev OneLine (text : String) : Prop :=
  Lacks '\n' text

theorem oneLine_toString
    (n : Nat) :
    OneLine (toString n) :=
  lacks_toString (by decide) n

/- A piece of a text on one line is on one line. -/
theorem OneLine.of_infix
    {text : String}
    {cs : List Char}
    (h : OneLine text)
    (hPiece : cs <:+: text.toList) :
    OneLine (String.ofList cs) := by
  intro hMem
  rw [String.toList_ofList] at hMem
  exact h (hPiece.subset hMem)

end Text

theorem Position.oneLine_text
    (p : Position) :
    Text.OneLine p.text := by
  unfold text
  simp +decide only [Text.lacks_append,
    Text.oneLine_toString]

end ScopeAnalysis

------------------------------------------------------------
-- Symbols And Entries
------------------------------------------------------------

namespace ScopeAnalysis

theorem Parameter.Lacks.oneLine_text
    {p : Parameter}
    (h : p.Lacks '\n') :
    Text.OneLine p.text := by
  unfold text
  simp +decide only [Text.lacks_append,
    Text.oneLine_toString, h.name, h.type]

namespace Symbol

theorem oneLine_quotedPart
    {label : String}
    {part : Option String}
    (hLabel : Text.OneLine label)
    (hPart : ∀ value ∈ part, Text.OneLine value) :
    Text.OneLine (quotedPart label part) := by
  cases part with
  | none => exact List.not_mem_nil
  | some value =>
      simp +decide only [quotedPart, Text.lacks_append,
        hLabel, hPart value rfl]

theorem oneLine_parametersPart
    {ps : List Parameter}
    (h : ∀ p ∈ ps, p.Lacks '\n') :
    Text.OneLine (parametersPart ps) := by
  have hTexts :
      ∀ text ∈ ps.map Parameter.text,
        Text.OneLine text := by
    intro text hText
    rcases List.mem_map.mp hText with ⟨p, hp, rfl⟩
    exact (h p hp).oneLine_text
  cases ps with
  | nil => exact List.not_mem_nil
  | cons p ps =>
      have hJoined :
          Text.OneLine
            (String.intercalate ", "
              ((p :: ps).map Parameter.text)) :=
        Text.lacks_intercalate (by decide) hTexts
      simp +decide only [parametersPart, Text.lacks_append,
        hJoined]

theorem oneLine_lengthPart
    (length : Option Nat) :
    Text.OneLine (lengthPart length) := by
  cases length with
  | none => exact List.not_mem_nil
  | some n =>
      simp +decide only [lengthPart, Text.lacks_append,
        Text.oneLine_toString]

/- A symbol is written on one line if its texts are. -/
theorem Lacks.oneLine_text
    {s : Symbol}
    (h : s.Lacks '\n') :
    Text.OneLine s.text := by
  have hKind : Text.OneLine s.kind.text := by
    cases s.kind <;> decide
  have hType : Text.OneLine (quotedPart "type" s.type) :=
    oneLine_quotedPart (by decide) h.type
  have hAccess :
      Text.OneLine (quotedPart "accessModifier" s.access) :=
    oneLine_quotedPart (by decide) h.access
  have hInherits :
      Text.OneLine (quotedPart "inherits" s.inherits) :=
    oneLine_quotedPart (by decide) h.inherits
  unfold text
  simp +decide only [Text.lacks_append, hKind, h.name, hType,
    hAccess, hInherits, oneLine_parametersPart h.parameters,
    oneLine_lengthPart]

end Symbol

namespace Report

/- An entry is on one line if its key and its symbol are. -/
theorem oneLine_entryLine
    (id : ScopeId)
    {key : String}
    {symbol : Symbol}
    (hKey : Text.OneLine key)
    (hSymbol : symbol.Lacks '\n') :
    Text.OneLine (entryLine id (key, symbol)) := by
  unfold entryLine
  split
  · unfold shortEntry
    simp +decide only [Text.lacks_append, hKey, hSymbol.name,
      Text.oneLine_toString]
  · unfold longEntry
    simp +decide only [Text.lacks_append, hKey,
      hSymbol.oneLine_text]

end Report

end ScopeAnalysis

------------------------------------------------------------
-- Programs
------------------------------------------------------------

namespace ScopeAnalysis

/- The texts of a class. -/
def ClassDecl.texts (decl : ClassDecl) : List String :=
  decl.name :: decl.parent.toList ++ decl.access.toList

/- The texts of a field. -/
def FieldDecl.texts (decl : FieldDecl) : List String :=
  decl.name :: decl.type :: decl.access.toList

/- The texts of a method. -/
def MethodDecl.texts (decl : MethodDecl) : List String :=
  decl.name :: decl.returnType :: decl.access.toList ++
    decl.paramNames ++ decl.paramTypes ++ decl.identifiers

/- The texts of a definition. -/
def VarDef.texts (definition : VarDef) : List String :=
  definition.names ++
    definition.initializers.map Expr.text

/- The texts of an assignment. -/
def Assignment.texts
    (assignment : Assignment) : List String :=
  assignment.target :: assignment.value.text ::
    (assignment.index.map Expr.text).toList

/-
  All texts of a construct: its names, types and access
  modifiers, and the texts of its expressions.
-/
def NodeKind.texts : NodeKind → List String
| .classDecl decl => decl.texts
| .fieldDecl decl => decl.texts
| .methodDecl decl => decl.texts
| .varDef definition => definition.texts
| .assignment assigned => assigned.texts
| .expression expr => [expr.text]
| .closedConditional _ => []
| .closedLoop => []
| .openConditional => []
| .openLoop => []
| .block => []
| .other => []

/- A node none of whose texts has a line feed. -/
def Node.OneLine (node : Node) : Prop :=
  ∀ text ∈ node.kind.texts, Text.OneLine text

/- A program none of whose texts has a line feed. -/
structure Program.OneLine (program : Program) : Prop where
  source : Text.OneLine program.source
  nodes :
    ∀ node ∈ Node.preorderAll program.items, node.OneLine

end ScopeAnalysis

------------------------------------------------------------
-- Messages
------------------------------------------------------------

namespace ScopeAnalysis

namespace Diagnostic

/- The texts of a program that a message shows. -/
def shown : Diagnostic → List String
| .classAlreadyDefined name _ => [name]
| .methodAlreadyDefined name _ => [name]
| .fieldAlreadyDefined name _ => [name]
| .returnTypeMismatch _ _ found _ => [found]
| .parameterCountMismatch .. => []
| .wrongNumberOfArguments method .. => [method]
| .argumentTypeMismatch method .. => [method]
| .arrayIndexMustBeInteger index _ => [index]
| .arrayIndexOutOfRange _ index _ _ => [index]

/- A message is on one line if the texts it shows are. -/
theorem oneLine_message
    {d : Diagnostic}
    (h : ∀ text ∈ d.shown, Text.OneLine text) :
    Text.OneLine d.message := by
  have hLabel : Text.OneLine d.code.label := by
    cases d.code <;> decide
  have hDetail : Text.OneLine d.detail := by
    unfold detail
    cases d <;>
      simp_all +decide only [shown, Text.lacks_append,
        Position.oneLine_text, Text.oneLine_toString,
        List.forall_mem_singleton]
  unfold message
  simp +decide only [Text.lacks_append, hLabel, hDetail]

end Diagnostic

/- A callee is a piece of the text of its call. -/
theorem Expr.Calls.oneLine
    {expr : Expr}
    {callee : String}
    (h : expr.Calls callee)
    (hText : Text.OneLine expr.text) :
    Text.OneLine callee := by
  rcases h with ⟨before, behind, hSplit, _, rfl⟩
  rcases Text.exists_trim before with ⟨front, back, hTrim, _⟩
  refine hText.of_infix ⟨front, back ++ '(' :: behind, ?_⟩
  rw [hSplit, ← List.append_assoc, ← hTrim]

/- What is said about a call shows its callee. -/
theorem judgeCall_shown
    {options : Options}
    {r : Registry}
    {expr : Expr}
    {start : Position}
    {d : Diagnostic}
    (h :
      (judgeCall options r expr start).diagnostic? =
        some d) :
    ∃ callee, expr.Calls callee ∧ d.shown = [callee] := by
  rcases judgeCall_fault_iff.mp h with
    ⟨callee, target, hCalls, _, hFault⟩
  refine ⟨callee, hCalls, ?_⟩
  cases hFault with
  | count => rfl
  | type => rfl

/- What is said about an index shows the index. -/
theorem judgeIndex_shown
    {r : Registry}
    {assignment : Assignment}
    {start : Position}
    {d : Diagnostic}
    (h :
      (judgeIndex r assignment start).diagnostic? =
        some d) :
    ∃ index ∈ assignment.index, d.shown = [index.text] := by
  unfold judgeIndex judgeRange at h
  split at h
  · cases h
  · rename_i index hIndex
    refine ⟨index, hIndex, ?_⟩
    split at h
    · dsimp only at h
      split at h
      · cases h
      · split at h
        · cases h
        · cases h
          rfl
    · cases h
      rfl

/- What is said about a header shows its return type. -/
theorem headerViolations_shown
    {options : Options}
    {decl : MethodDecl}
    {start : Position}
    {d : Diagnostic}
    (hd : d ∈ headerViolations options decl start) :
    ∀ text ∈ d.shown, text = decl.returnType := by
  unfold headerViolations returnTypeViolations
    parameterCountViolations at hd
  rcases List.mem_append.mp hd with hType | hCount
  · split at hType
    · cases hType
    · rw [List.mem_singleton.mp hType]
      exact fun _ hText => List.mem_singleton.mp hText
  · split at hCount
    · cases hCount
    · rw [List.mem_singleton.mp hCount]
      exact fun _ hText => (List.not_mem_nil hText).elim

namespace Node

/- A message about a node shows no text but the node's. -/
theorem OneLine.violations
    {node : Node}
    (h : node.OneLine)
    {options : Options}
    {r : Registry}
    {d : Diagnostic}
    (hd : d ∈ node.violations options r) :
    Text.OneLine d.message := by
  apply Diagnostic.oneLine_message
  intro text hText
  unfold OneLine at h
  unfold Node.violations at hd
  cases hKind : node.kind with
  | classDecl decl =>
      rw [hKind] at h
      simp only [hKind, List.mem_ite_nil_right,
        List.mem_singleton] at hd
      rw [hd.2] at hText
      rw [List.mem_singleton.mp hText]
      exact h _ List.mem_cons_self
  | fieldDecl decl =>
      rw [hKind] at h
      simp only [hKind, List.mem_ite_nil_right,
        List.mem_singleton] at hd
      rw [hd.2] at hText
      rw [List.mem_singleton.mp hText]
      exact h _ List.mem_cons_self
  | methodDecl decl =>
      rw [hKind] at h
      simp only [hKind] at hd
      split at hd
      · rw [List.mem_singleton.mp hd] at hText
        rw [List.mem_singleton.mp hText]
        exact h _ (by simp [NodeKind.texts, MethodDecl.texts])
      · rw [headerViolations_shown hd text hText]
        exact h _ (by simp [NodeKind.texts, MethodDecl.texts])
  | varDef definition =>
      rw [hKind] at h
      simp only [hKind, Option.mem_toList] at hd
      rcases List.exists_of_findSome?_eq_some hd with
        ⟨expr, hExpr, hVerdict⟩
      rcases judgeCall_shown hVerdict with
        ⟨callee, hCalls, hShown⟩
      rw [hShown, List.mem_singleton] at hText
      rw [hText]
      refine hCalls.oneLine (h _ ?_)
      exact List.mem_append_right _ (List.mem_map_of_mem hExpr)
  | assignment assigned =>
      rw [hKind] at h
      simp only [hKind, Option.mem_toList] at hd
      rcases judgeIndex_shown hd with
        ⟨index, hIndex, hShown⟩
      rw [hShown, List.mem_singleton] at hText
      rw [hText]
      refine h _ ?_
      simp only [NodeKind.texts, Assignment.texts]
      rw [Option.mem_def.mp hIndex]
      simp
  | closedConditional conditional => simp [hKind] at hd
  | closedLoop => simp [hKind] at hd
  | openConditional => simp [hKind] at hd
  | openLoop => simp [hKind] at hd
  | block => simp [hKind] at hd
  | expression expr => simp [hKind] at hd
  | other => simp [hKind] at hd

end Node

end ScopeAnalysis
