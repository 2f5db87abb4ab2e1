import ScopeAnalysis.Proofs.OneLineTables
import ScopeAnalysis.Proofs.Output

/-
  The lines of the output of an analysis.

  Key definitions include:
    * `Text.lines`
    * `Report.OpensSection`
    * `TellsSections`

  Key theorems include:
    * `Text.lines_textOfLines`
    * `Report.opensSection_sectionHeader`
    * `Report.filter_sectionLines`
    * `tellsSections`

  Whatever is written is written line by line, and twenty
  dashes with a blank behind them open the header of a
  section and no other line.  The header of the report has
  fewer dashes, a divider has more of them, and all other
  lines start with another character.  So the lines that
  start like this tell the scopes in order of discovery.
-/

------------------------------------------------------------
-- Lines Of A Text
------------------------------------------------------------

namespace ScopeAnalysis

namespace Text

/-
  The lines of a text.  They end at line feeds, and what
  stands behind the last line feed is one more line unless
  it is empty.
-/
def lines (text : String) : List String :=
  let pieces := (text.toList.splitOn '\n').map String.ofList
  if pieces.getLast? = some "" then
    pieces.dropLast
  else
    pieces

/- Lines with their ends are joined by the line feeds. -/
theorem toList_textOfLines
    (ls : List String) :
    (Report.textOfLines ls).toList =
      ['\n'].intercalate (ls.map String.toList ++ [[]]) := by
  induction ls with
  | nil => simp [Report.textOfLines]
  | cons line ls ih =>
      rw [List.map_cons, List.cons_append,
        List.intercalate_cons_of_ne_nil (by simp), ← ih]
      simp [Report.textOfLines]

/- A text of lines without line feeds has these lines. -/
theorem lines_textOfLines
    {ls : List String}
    (h : ∀ line ∈ ls, OneLine line) :
    lines (Report.textOfLines ls) = ls := by
  have hLines :
      ∀ piece ∈ ls.map String.toList ++ [[]],
        '\n' ∉ piece := by
    intro piece hPiece
    rcases List.mem_append.mp hPiece with hLine | hEnd
    · rcases List.mem_map.mp hLine with ⟨line, hIn, rfl⟩
      exact h line hIn
    · rw [List.mem_singleton.mp hEnd]
      exact List.not_mem_nil
  have hPieces :
      ((Report.textOfLines ls).toList.splitOn '\n').map
          String.ofList =
        ls ++ [""] := by
    rw [toList_textOfLines,
      List.splitOn_intercalate '\n' hLines (by simp)]
    simp [Function.comp_def]
  simp [lines, hPieces]

end Text

end ScopeAnalysis

------------------------------------------------------------
-- Lines That Open Sections
------------------------------------------------------------

namespace ScopeAnalysis

namespace Report

/- Twenty dashes. -/
def dashes : List Char :=
  List.replicate 20 '-'

/- A line that starts with twenty dashes and a blank. -/
def OpensSection (line : String) : Prop :=
  dashes ++ [' '] <+: line.toList

instance
    (line : String) :
    Decidable (OpensSection line) := by
  unfold OpensSection
  infer_instance

/- The header of a section has the dashes on both sides. -/
theorem toList_sectionHeader
    (id : ScopeId) :
    (sectionHeader id).toList =
      dashes ++ ' ' :: id.text.toList ++ ' ' :: dashes := by
  unfold sectionHeader
  simp only [String.toList_append, List.append_assoc]
  rfl

theorem opensSection_sectionHeader
    (id : ScopeId) :
    OpensSection (sectionHeader id) := by
  rw [OpensSection, toList_sectionHeader]
  exact ⟨id.text.toList ++ ' ' :: dashes, by simp⟩

/- The name of a scope can be read off the header. -/
theorem sectionHeader_injective :
    Function.Injective sectionHeader := by
  intro a b h
  have hList := congrArg String.toList h
  rw [toList_sectionHeader, toList_sectionHeader] at hList
  simp only [List.append_assoc, List.cons_append,
    List.append_cancel_left_eq, List.cons.injEq, true_and,
    List.append_cancel_right_eq] at hList
  cases a
  cases b
  rw [ScopeId.mk.injEq]
  exact String.toList_inj.mp hList

/- Such a line has a dash where a report header has none. -/
theorem OpensSection.dash_at
    {line : String}
    (h : OpensSection line) :
    line.toList.head? = some '-' ∧
      line.toList[18]? = some '-' := by
  rcases h with ⟨rest, hRest⟩
  rw [← hRest]
  exact ⟨rfl, rfl⟩

theorem not_opensSection_header
    (source : String) :
    ¬ OpensSection (header source) := by
  intro h
  have hDash := h.dash_at.2
  have hBlank : (header source).toList[18]? = some ' ' := by
    unfold header
    simp only [String.toList_append, List.append_assoc]
    rfl
  rw [hBlank] at hDash
  cases hDash

theorem not_opensSection_divider :
    ¬ OpensSection divider := by
  decide

theorem not_opensSection_banner :
    ¬ OpensSection noEntriesBanner := by
  decide

/- Entries start with a letter. -/
theorem not_opensSection_entryLine
    (id : ScopeId)
    (entry : String × Symbol) :
    ¬ OpensSection (entryLine id entry) := by
  intro h
  have hDash := h.dash_at.1
  have hLetter :
      (entryLine id entry).toList.head? = some 'k' := by
    unfold entryLine shortEntry longEntry
    split <;>
      simp only [String.toList_append, List.append_assoc] <;>
      rfl
  rw [hLetter] at hDash
  cases hDash

/- Nothing between header and divider opens a section. -/
theorem not_opensSection_of_mem
    {id : ScopeId}
    {table : ScopeTable}
    {line : String}
    (hLine : line ∈ entryLines id table) :
    ¬ OpensSection line := by
  rw [entryLines_eq, List.mem_append] at hLine
  rcases hLine with hBanner | hEntry
  · rw [List.mem_ite_nil_right, List.mem_singleton] at hBanner
    rw [hBanner.2]
    exact not_opensSection_banner
  · rcases List.mem_map.mp hEntry with ⟨entry, _, rfl⟩
    exact not_opensSection_entryLine id entry

/- A section has one line that opens a section. -/
theorem filter_sectionLines
    (id : ScopeId)
    (table : ScopeTable) :
    (sectionLines id table).filter (OpensSection ·) =
      [sectionHeader id] := by
  have hBody :
      (entryLines id table).filter (OpensSection ·) = [] := by
    rw [List.filter_eq_nil_iff]
    intro line hLine
    simpa using not_opensSection_of_mem hLine
  rw [sectionLines, List.cons_append,
    List.filter_cons_of_pos
      (by simpa using opensSection_sectionHeader id),
    List.filter_append, hBody, List.nil_append,
    List.filter_singleton]
  simp [not_opensSection_divider]

/- A report has one such line for each of its scopes. -/
theorem filter_lines
    (source : String)
    (r : Registry) :
    (lines source r).filter (OpensSection ·) =
      r.discoveryOrder.map sectionHeader := by
  rw [lines_eq, List.filter_cons_of_neg
    (by simpa using not_opensSection_header source)]
  induction r.discoveryOrder with
  | nil => rfl
  | cons id ids ih =>
      rw [List.map_cons, List.flatten_cons,
        List.filter_append, filter_sectionLines, ih]
      rfl

end Report

/- Messages start with a letter. -/
theorem Diagnostic.not_opensSection_message
    (d : Diagnostic) :
    ¬ Report.OpensSection d.message := by
  intro h
  have hDash := h.dash_at.1
  have hLabel : d.code.label.toList.head? = some 'E' := by
    cases d.code <;> decide
  have hLetter : d.message.toList.head? = some 'E' := by
    unfold message
    simp only [String.toList_append, List.append_assoc,
      List.head?_append, hLabel, Option.some_or]
  rw [hLetter] at hDash
  cases hDash

end ScopeAnalysis

------------------------------------------------------------
-- Whole Outputs
------------------------------------------------------------

namespace ScopeAnalysis

/- What such a program is blamed for is on one line each. -/
theorem Program.OneLine.message
    {program : Program}
    (h : program.OneLine)
    {options : Options}
    {sink : Sink}
    (hRun : (runPass options sink program).1 = .ok ())
    {d : Diagnostic}
    (hd : d ∈ (runPass options sink program).2.diagnostics) :
    Text.OneLine d.message := by
  rw [diagnostics_of_frames hRun, List.mem_flatMap] at hd
  rcases hd with ⟨entered, hEntered, hViolation⟩
  have hNode :
      entered.1 ∈ Node.preorderAll program.items := by
    rw [← program.nodes_frames]
    exact List.mem_map_of_mem hEntered
  exact (h.nodes entered.1 hNode).violations hViolation

theorem Report.textOfLines_append
    (first second : List String) :
    textOfLines (first ++ second) =
      textOfLines first ++ textOfLines second := by
  rw [textOfLines, List.map_append, String.join_append]
  rfl

/- Without a limit all messages and the report are written. -/
theorem output_runPass
    (options : Options)
    (program : Program) :
    ∃ p,
      runPass options .unlimited program = (.ok (), p) ∧
        analyzeWith options program = .ok p.result ∧
        p.output =
          Report.textOfLines
            (p.diagnostics.map Diagnostic.message ++
              Report.lines program.source p.registry) := by
  rcases runPass_unlimited options program with
    ⟨q, hGather, hq, hRun⟩
  have hSource := source_gather options program
  rw [hGather] at hSource
  refine ⟨q.finish, hRun, analyzeWith_of_runPass hq hRun, ?_⟩
  rw [hq.output_finish, hSource, Report.textOfLines_append]
  -- A diagnostic's line is its message with a line end.
  congr 1
  rw [Report.textOfLines, List.map_map]
  rfl

/-
  The output of an analysis line by line: the messages of the
  diagnostics, one line each, the header of the report, and a
  section for each scope in order of discovery.  The lines
  that open sections are their headers and no others, and
  the order can be told from them.
-/
structure TellsSections
    (source : String)
    (a : Analysis) : Prop where
  layout :
    Text.lines a.output =
      a.diagnostics.map Diagnostic.message ++
        Report.header source ::
          a.registry.discoveryOrder.flatMap fun id =>
            Report.sectionHeader id ::
              Report.entryLines id (a.registry.tableOf id) ++
                [Report.divider]
  openings :
    (Text.lines a.output).filter (Report.OpensSection ·) =
      a.registry.discoveryOrder.map fun id =>
        String.ofList
          (Report.dashes ++ ' ' :: id.text.toList ++
            ' ' :: Report.dashes)
  plain_diagnostics :
    ∀ d ∈ a.diagnostics,
      ¬ Report.OpensSection d.message
  plain_header : ¬ Report.OpensSection (Report.header source)
  plain_bodies :
    ∀ id ∈ a.registry.discoveryOrder,
      ∀ line ∈
          Report.entryLines id (a.registry.tableOf id) ++
            [Report.divider],
        ¬ Report.OpensSection line
  recovers :
    ∀ ids : List ScopeId,
      (Text.lines a.output).filter (Report.OpensSection ·) =
          ids.map Report.sectionHeader →
        ids = a.registry.discoveryOrder

/- Any output with these lines tells its sections. -/
theorem TellsSections.of_lines
    {source : String}
    {a : Analysis}
    (hLines :
      Text.lines a.output =
        a.diagnostics.map Diagnostic.message ++
          Report.lines source a.registry) :
    TellsSections source a := by
  have hMessages :
      (a.diagnostics.map Diagnostic.message).filter
          (Report.OpensSection ·) = [] := by
    rw [List.filter_eq_nil_iff]
    intro line hLine
    rcases List.mem_map.mp hLine with ⟨d, _, rfl⟩
    simpa using d.not_opensSection_message
  have hOpenings :
      (Text.lines a.output).filter (Report.OpensSection ·) =
        a.registry.discoveryOrder.map
          Report.sectionHeader := by
    rw [hLines, List.filter_append, hMessages,
      List.nil_append, Report.filter_lines]
  refine ⟨?_, ?_, ?_, ?_, ?_, ?_⟩
  · rw [hLines, Report.lines_eq, List.flatMap_def]
    rfl
  · rw [hOpenings]
    apply List.map_congr_left
    intro id _
    rw [← Report.toList_sectionHeader, String.ofList_toList]
  · exact fun d _ => d.not_opensSection_message
  · exact Report.not_opensSection_header source
  · intro id _ line hLine
    rcases List.mem_append.mp hLine with hBody | hDivider
    · exact Report.not_opensSection_of_mem hBody
    · rw [List.mem_singleton.mp hDivider]
      exact Report.not_opensSection_divider
  · intro ids hIds
    rw [hOpenings] at hIds
    exact
      (List.map_injective_iff.mpr
        Report.sectionHeader_injective hIds).symm

/- Every program without line feeds has such an output. -/
theorem tellsSections
    (options : Options)
    (program : Program)
    (h : program.OneLine) :
    ∃ a,
      analyzeWith options program = .ok a ∧
        TellsSections program.source a := by
  rcases output_runPass options program with
    ⟨p, hRun, hAnalysis, hOutput⟩
  have hOk :
      (runPass options .unlimited program).1 = .ok () := by
    rw [hRun]
  have hRegistry : p.registry.OneLine := by
    have hFrame := (runPass_ok hOk).2.2
    rw [hRun] at hFrame
    rw [show p.registry = p.frame.registry from rfl, hFrame]
    exact h.lastFrame
  have hLines :
      Text.lines p.output =
        p.diagnostics.map Diagnostic.message ++
          Report.lines program.source p.registry := by
    rw [hOutput]
    apply Text.lines_textOfLines
    intro line hLine
    rcases List.mem_append.mp hLine with hMessage | hReport
    · rcases List.mem_map.mp hMessage with ⟨d, hd, rfl⟩
      refine h.message hOk ?_
      rw [hRun]
      exact hd
    · exact
        Report.oneLine_lines hRegistry h.source line hReport
  refine ⟨p.result, hAnalysis, .of_lines ?_⟩
  simp only [Pass.result]
  exact hLines

/-
  A program that is named like the end of a section header,
  with a class that is named like the start of one.
-/
def Program.dashed : Program where
  source := " --------------------"
  items :=
    [ ⟨.classDecl ⟨"-------------------- A", none, none⟩,
        .token 1 0,
        [⟨.fieldDecl ⟨"a", "int", none⟩, .token 2 0, []⟩,
          ⟨.fieldDecl ⟨"a", "int", none⟩, .token 3 0, []⟩]⟩ ]

theorem Program.oneLine_dashed : dashed.OneLine where
  source := by decide
  nodes := by
    intro node hNode
    simp only [dashed, Node.preorderAll, Node.preorder,
      List.append_nil, List.cons_append, List.nil_append,
      List.mem_cons, List.not_mem_nil, or_false] at hNode
    rcases hNode with rfl | rfl | rfl <;>
      unfold Node.OneLine <;> decide

/- Its dashes are not taken for headers of sections. -/
theorem tellsSections_dashed :
    Program.dashed.OneLine ∧
      ∃ a,
        analyzeWith .standard .dashed = .ok a ∧
          (Text.lines a.output).filter
              (Report.OpensSection ·) =
            [ "-------------------- global" ++
                " --------------------",
              "-------------------- class_" ++
                "-------------------- A" ++
                " --------------------" ] := by
  have hLine := Program.oneLine_dashed
  rcases tellsSections .standard .dashed hLine with
    ⟨a, hAnalysis, hTells⟩
  have hOrder :
      (runPass .standard .unlimited
          .dashed).2.registry.discoveryOrder =
        [.global, .ofClass "-------------------- A"] := by
    decide +kernel
  refine ⟨hLine, a, hAnalysis, ?_⟩
  unfold analyzeWith at hAnalysis
  split at hAnalysis
  · rename_i p hRun
    cases hAnalysis
    rw [hRun] at hOrder
    rw [hTells.openings]
    simp only [Pass.result, hOrder]
    decide +kernel
  · cases hAnalysis

end ScopeAnalysis
