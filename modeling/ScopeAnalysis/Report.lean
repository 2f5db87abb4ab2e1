import ScopeAnalysis.Registry

/-
  The report on all symbols of a registry.

  Key definitions include:
    * `Report.header`
    * `Report.sectionHeader`
    * `Report.entryLines`
    * `Report.sectionLines`
    * `Report.lines`
    * `Report.text`

  A report is a header and one section per scope, in order
  of discovery.  Within a section the entries are ordered by
  key.
-/

------------------------------------------------------------
-- Single Lines
------------------------------------------------------------

namespace ScopeAnalysis

namespace Report

/- The line of a section that has nothing to list. -/
def noEntriesBanner : String :=
  "                    !NO KEY FOUND!"

/- The line that closes a section. -/
def divider : String :=
  "------------------------------------------------------"

/- The line that opens a report. -/
def header (source : String) : String :=
  "------------------ program:\"" ++ source ++
    "\" ------------------"

/- The line that opens the section of a scope. -/
def sectionHeader (id : ScopeId) : String :=
  "-------------------- " ++ id.text ++
    " --------------------"

/- An entry with all that is known about its symbol. -/
def longEntry
    (key : String)
    (symbol : Symbol) : String :=
  "key = " ++ key ++ ", value = " ++ symbol.text

/-
  An entry with the name and the first line of its symbol.
  A symbol without a first line is listed with line zero.
-/
def shortEntry
    (key : String)
    (symbol : Symbol) : String :=
  "key = " ++ key ++
    ", value = (name: " ++ symbol.name ++
    ") (first_appearance: " ++
    toString (symbol.firstLine.getD 0) ++ ")"

end Report

end ScopeAnalysis

------------------------------------------------------------
-- Sections
------------------------------------------------------------

namespace ScopeAnalysis

namespace Report

/-
  The lines between a section's header and its divider.  A
  guarded block shows the banner and its variables, with or
  without any.  An else-block shows all entries and never
  the banner.  Other scopes show all entries at length, or
  the banner when there are none.
-/
def entryLines
    (id : ScopeId)
    (table : ScopeTable) : List String :=
  let entries := table.sortedEntries
  if id.kind.isGuarded then
    noEntriesBanner ::
      (entries.filter fun e => e.2.isVariable).map
        fun e => shortEntry e.1 e.2
  else if id.kind = .elseBlock then
    entries.map fun e => shortEntry e.1 e.2
  else if entries.isEmpty then
    [noEntriesBanner]
  else
    entries.map fun e => longEntry e.1 e.2

/- The section of one scope. -/
def sectionLines
    (id : ScopeId)
    (table : ScopeTable) : List String :=
  sectionHeader id :: entryLines id table ++ [divider]

end Report

end ScopeAnalysis

------------------------------------------------------------
-- Reports
------------------------------------------------------------

namespace ScopeAnalysis

namespace Report

/- All lines of a report. -/
def lines
    (source : String)
    (registry : Registry) : List String :=
  header source ::
    registry.scopes.entries.flatMap fun scope =>
      sectionLines scope.1 scope.2

/- Lines as a text in which each line has its end. -/
def textOfLines (ls : List String) : String :=
  String.join (ls.map fun line => line ++ "\n")

/- The text of a report. -/
def text
    (source : String)
    (registry : Registry) : String :=
  textOfLines (lines source registry)

end Report

end ScopeAnalysis
