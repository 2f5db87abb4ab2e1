import ScopeAnalysis.Proofs.OutputLines
import ScopeAnalysis.Proofs.ScopeNames

/-
  What the name of a scope tells about its construct.

  Key definitions include:
    * `ScopeKind.lead`
    * `ScopeName.kind`
    * `ScopeName.body`
    * `TellsConstruct`

  Key theorems include:
    * `ScopeName.beginsWith_lead_iff`
    * `ScopeName.kind_id`
    * `ScopeName.entryLines_id`
    * `tellsConstruct`

  The kind of a scope is found by trying one lead after the
  other.  The first lead that fits decides, and the leads of
  blocks lack the underscore that names have behind them.
  It works because leads differ in their first characters,
  so that no name fits two of them.  What stands behind a
  lead does not matter, and so no name of a class or of a
  method can change how its scope is reported.
-/

------------------------------------------------------------
-- Leads
------------------------------------------------------------

namespace ScopeAnalysis

namespace Text

variable {lead text : String}

/- A text begins with the first part that it is made of. -/
theorem beginsWith_append
    (lead rest : String) :
    beginsWith lead (lead ++ rest) := by
  rw [beginsWith, List.isPrefixOf_iff_prefix,
    String.toList_append]
  exact List.prefix_append _ _

/- A lead that fits has the first character of the text. -/
theorem head?_of_beginsWith
    (h : beginsWith lead text)
    (hLead : lead.toList ≠ []) :
    lead.toList.head? = text.toList.head? := by
  rw [beginsWith, List.isPrefixOf_iff_prefix] at h
  rcases h with ⟨rest, hRest⟩
  rw [← hRest, List.head?_append_of_ne_nil _ hLead]

end Text

/- The text by which a kind of scope is recognized. -/
def ScopeKind.lead : ScopeKind → String
| .global => "global"
| .classBody => "class_"
| .methodBody => "method_"
| .ifBlock => "if"
| .elseBlock => "else"
| .whileBlock => "while"
| .other => ""

theorem ScopeKind.toList_lead_ne_nil
    {k : ScopeKind}
    (hk : k ≠ .other) :
    k.lead.toList ≠ [] := by
  cases k with
  | other => exact absurd rfl hk
  | _ => decide

end ScopeAnalysis

------------------------------------------------------------
-- Kinds Of Constructs
------------------------------------------------------------

namespace ScopeAnalysis

namespace ScopeName

/- The kind of the construct that a scope belongs to. -/
def kind : ScopeName → ScopeKind
| .global => .global
| .classBody _ => .classBody
| .methodBody _ => .methodBody
| .ifBlock _ _ => .ifBlock
| .elseBlock _ _ => .elseBlock
| .whileBlock _ _ => .whileBlock

/- First characters tell the leads of kinds apart. -/
theorem head?_lead_eq_iff
    (n : ScopeName)
    {k : ScopeKind}
    (hk : k ≠ .other) :
    k.lead.toList.head? = some n.initial ↔
      k = n.kind := by
  cases k with
  | other => exact absurd rfl hk
  | _ => cases n <;> simp [ScopeKind.lead, initial, kind]

/- Every name begins with the lead of its construct. -/
theorem beginsWith_lead_kind
    (n : ScopeName) :
    Text.beginsWith n.kind.lead n.id.text := by
  cases n with
  | global => rfl
  | classBody name => exact Text.beginsWith_append _ _
  | methodBody signature => exact Text.beginsWith_append _ _
  | _ =>
      simp only [id, ScopeId.ofIf, ScopeId.ofElse,
        ScopeId.ofWhile, ScopeId.ofBlock,
        String.append_assoc]
      exact Text.beginsWith_append _ _

/- It begins with no other lead. -/
theorem beginsWith_lead_iff
    (n : ScopeName)
    (k : ScopeKind)
    (hk : k ≠ .other) :
    Text.beginsWith k.lead n.id.text ↔ k = n.kind := by
  constructor
  · intro hFits
    have hHead :=
      Text.head?_of_beginsWith hFits
        (ScopeKind.toList_lead_ne_nil hk)
    rw [n.head?_id] at hHead
    exact (n.head?_lead_eq_iff hk).mp hHead
  · rintro rfl
    exact n.beginsWith_lead_kind

theorem isGlobal_id_iff
    (n : ScopeName) :
    n.id.isGlobal ↔ n = .global := by
  rw [ScopeId.isGlobal, decide_eq_true_iff]
  exact id_injective.eq_iff (b := .global)

/- So the order in which leads are tried has no effect. -/
theorem kind_id
    (n : ScopeName) :
    n.id.kind = n.kind := by
  have hIf :
      Text.beginsWith "if" n.id.text ↔
        .ifBlock = n.kind :=
    n.beginsWith_lead_iff .ifBlock (by decide)
  have hWhile :
      Text.beginsWith "while" n.id.text ↔
        .whileBlock = n.kind :=
    n.beginsWith_lead_iff .whileBlock (by decide)
  have hElse :
      Text.beginsWith "else" n.id.text ↔
        .elseBlock = n.kind :=
    n.beginsWith_lead_iff .elseBlock (by decide)
  have hClass :
      Text.beginsWith "class_" n.id.text ↔
        .classBody = n.kind :=
    n.beginsWith_lead_iff .classBody (by decide)
  have hMethod :
      Text.beginsWith "method_" n.id.text ↔
        .methodBody = n.kind :=
    n.beginsWith_lead_iff .methodBody (by decide)
  simp only [ScopeId.kind, isGlobal_id_iff, hIf, hWhile,
    hElse, hClass, hMethod]
  cases n <;> rfl

end ScopeName

end ScopeAnalysis

------------------------------------------------------------
-- Sections Of Constructs
------------------------------------------------------------

namespace ScopeAnalysis

namespace Report

variable (entries : List (String × Symbol))

/- Entries in short. -/
def shortLines : List String :=
  entries.map fun e => shortEntry e.1 e.2

/- The banner and variables in short. -/
def guardedLines : List String :=
  noEntriesBanner ::
    shortLines (entries.filter fun e => e.2.isVariable)

/- Entries at length, or the banner if there are none. -/
def longLines : List String :=
  if entries.isEmpty then
    [noEntriesBanner]
  else
    entries.map fun e => longEntry e.1 e.2

end Report

namespace ScopeName

/- What the section of a construct shows of a table. -/
def body
    (table : ScopeTable) : ScopeName → List String
| .global => Report.longLines table.sortedEntries
| .classBody _ => Report.longLines table.sortedEntries
| .methodBody _ => Report.longLines table.sortedEntries
| .ifBlock _ _ => Report.guardedLines table.sortedEntries
| .elseBlock _ _ => Report.shortLines table.sortedEntries
| .whileBlock _ _ =>
    Report.guardedLines table.sortedEntries

/- Sections depend on constructs, and not on their names. -/
theorem entryLines_id
    (n : ScopeName)
    (table : ScopeTable) :
    Report.entryLines n.id table = n.body table := by
  rw [Report.entryLines, kind_id]
  cases n <;> rfl

end ScopeName

end ScopeAnalysis

------------------------------------------------------------
-- Names And Constructs
------------------------------------------------------------

namespace ScopeAnalysis

/-
  What a scope's name tells.  Scopes of different constructs
  have different names and different headers in a report.
  The kind is that of the construct.  Classes and methods in
  particular are neither global nor guarded nor else-blocks,
  and their sections are not those of blocks.
-/
structure TellsConstruct (n : ScopeName) : Prop where
  id_eq_iff :
    ∀ other : ScopeName, n.id = other.id ↔ n = other
  kind_eq : n.id.kind = n.kind
  global_iff : n.id.isGlobal ↔ n = .global
  guarded_iff :
    n.id.kind.isGuarded ↔
      ∃ startLine endLine,
        n = .ifBlock startLine endLine ∨
          n = .whileBlock startLine endLine
  else_iff :
    n.id.kind = .elseBlock ↔
      ∃ startLine endLine,
        n = .elseBlock startLine endLine
  header_eq_iff :
    ∀ other : ScopeName,
      Report.sectionHeader n.id =
          Report.sectionHeader other.id ↔
        n = other
  section_eq :
    ∀ table,
      Report.sectionLines n.id table =
        Report.sectionHeader n.id :: n.body table ++
          [Report.divider]

/- Every name tells its construct, whatever it is. -/
theorem tellsConstruct
    (n : ScopeName) :
    TellsConstruct n where
  id_eq_iff other := ScopeName.id_injective.eq_iff
  kind_eq := n.kind_id
  global_iff := n.isGlobal_id_iff
  guarded_iff := by
    rw [n.kind_id]
    cases n <;> simp [ScopeName.kind, ScopeKind.isGuarded]
  else_iff := by
    rw [n.kind_id]
    cases n <;> simp [ScopeName.kind]
  header_eq_iff other := by
    rw [Report.sectionHeader_injective.eq_iff]
    exact ScopeName.id_injective.eq_iff
  section_eq table := by
    rw [Report.sectionLines, n.entryLines_id]

end ScopeAnalysis
