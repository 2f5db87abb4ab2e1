import Mathlib.Data.List.Sort
import ScopeAnalysis.Proofs.ByteOrder
import ScopeAnalysis.Proofs.Discovery
import ScopeAnalysis.Report

/-
  What a report lists, and in what order.

  Key definitions include:
    * `KeyLess`
    * `Report.Shows`
    * `Report.Lists`
    * `Report.listed`
    * `Report.BannerDue`
    * `Report.Writes`
    * `Report.Fills`
    * `Report.Encloses`
    * `Report.Covers`

  Key theorems include:
    * `ScopeTable.mem_sortedEntries_iff`
    * `ScopeTable.pairwise_sortedEntries`
    * `ScopeTable.eq_sortedEntries`
    * `Report.Lists.unique`
    * `Report.fills_entryLines`
    * `Report.sectionLines_congr`
    * `Report.covers_afterOps`

  A section lists what its table maps keys to, in increasing
  order of the keys.  No key occurs twice, so there is only
  one such list, and neither the order of arrival nor the way
  of sorting shows in a report.
-/

------------------------------------------------------------
-- Sorted Entries
------------------------------------------------------------

namespace ScopeAnalysis

/- The entries of a map are what it maps its keys to. -/
theorem OrderedMap.mem_entries_iff
    {κ α : Type}
    [DecidableEq κ]
    (m : OrderedMap κ α)
    {k : κ}
    {v : α} :
    (k, v) ∈ m.entries ↔ m.get? k = some v := by
  constructor
  · intro h
    exact Entries.lookup_of_mem m.nodup_keys h
  · intro h
    rcases List.lookup_eq_some_iff.mp h with
      ⟨front, rest, hSplit, _⟩
    rw [hSplit]
    simp

/- An entry has a smaller key, by the bytes of the keys. -/
def KeyLess
    (a b : String × Symbol) : Prop :=
  utf8Bytes a.1 < utf8Bytes b.1

instance
    (a b : String × Symbol) :
    Decidable (KeyLess a b) := by
  unfold KeyLess
  infer_instance

instance : Std.Irrefl KeyLess :=
  ⟨fun _ => List.lt_irrefl _⟩

instance : Std.Antisymm KeyLess :=
  ⟨fun _ _ h h' => (List.lt_asymm h h').elim⟩

namespace ScopeTable

theorem mem_sortedEntries_iff
    (t : ScopeTable)
    {key : String}
    {symbol : Symbol} :
    (key, symbol) ∈ t.sortedEntries ↔
      t.get? key = some symbol := by
  rw [sortedEntries, List.mem_mergeSort]
  exact t.mem_entries_iff

/- No key occurs twice, so sorted keys really increase. -/
theorem pairwise_keyLess
    {t : ScopeTable}
    {es : List (String × Symbol)}
    (hPerm : es.Perm t.entries)
    (hSorted : es.Pairwise fun a b => ¬ KeyLess b a) :
    es.Pairwise KeyLess := by
  have hKeys :
      (es.map Prod.fst).Perm (t.entries.map Prod.fst) :=
    hPerm.map _
  have hDiffer : es.Pairwise fun a b => a.1 ≠ b.1 :=
    List.pairwise_map.mp (hKeys.nodup_iff.mpr t.nodup_keys)
  refine hSorted.imp₂ ?_ hDiffer
  intro a b hNot hNe
  rw [KeyLess, ← lt_iff_utf8Bytes_lt] at hNot ⊢
  exact lt_of_le_of_ne (not_lt.mp hNot) hNe

theorem pairwise_sortedEntries
    (t : ScopeTable) :
    t.sortedEntries.Pairwise KeyLess := by
  apply pairwise_keyLess (List.mergeSort_perm _ _)
  have hMerge :=
    @List.pairwise_mergeSort _
      (fun a b : String × Symbol => decide (a.1 ≤ b.1))
      (by
        intro a b c hab hbc
        rw [decide_eq_true_iff] at hab hbc ⊢
        exact le_trans hab hbc)
      (by
        intro a b
        simpa using le_total a.1 b.1)
      t.entries
  refine hMerge.imp ?_
  intro a b hLe
  rw [KeyLess, ← lt_iff_utf8Bytes_lt, not_lt]
  exact of_decide_eq_true hLe

/- Entries in any order can be sorted in one way only. -/
theorem eq_sortedEntries
    {t : ScopeTable}
    {es : List (String × Symbol)}
    (hPerm : es.Perm t.entries)
    (hSorted : es.Pairwise fun a b => ¬ KeyLess b a) :
    es = t.sortedEntries :=
  (hPerm.trans (List.mergeSort_perm _ _).symm).eq_of_pairwise'
    (pairwise_keyLess hPerm hSorted)
    t.pairwise_sortedEntries

end ScopeTable

end ScopeAnalysis

------------------------------------------------------------
-- Lists Of Entries
------------------------------------------------------------

namespace ScopeAnalysis

namespace Report

/- Guarded blocks show variables and all others anything. -/
def Shows
    (id : ScopeId)
    (symbol : Symbol) : Prop :=
  id.kind = .ifBlock ∨ id.kind = .whileBlock →
    symbol.kind = .var

/-
  The entries that the section of a scope is to list: those
  that it shows, in strictly increasing order of the bytes of
  their keys.
-/
structure Lists
    (id : ScopeId)
    (table : ScopeTable)
    (entries : List (String × Symbol)) : Prop where
  increasing : entries.Pairwise KeyLess
  mem_iff :
    ∀ key symbol,
      (key, symbol) ∈ entries ↔
        table.get? key = some symbol ∧ Shows id symbol

/- There is one list only, whatever order entries came in. -/
theorem Lists.unique
    {id : ScopeId}
    {t u : ScopeTable}
    {es fs : List (String × Symbol)}
    (h : Lists id t es)
    (h' : Lists id u fs)
    (hSame : ∀ key, u.get? key = t.get? key) :
    fs = es := by
  apply h'.increasing.eq_of_mem_iff h.increasing
  rintro ⟨key, symbol⟩
  rw [h'.mem_iff, h.mem_iff, hSame]

/- The entries that a section does list. -/
def listed
    (id : ScopeId)
    (table : ScopeTable) : List (String × Symbol) :=
  if id.kind.isGuarded then
    table.sortedEntries.filter fun e => e.2.isVariable
  else
    table.sortedEntries

theorem isGuarded_iff
    {kind : ScopeKind} :
    kind.isGuarded ↔
      kind = .ifBlock ∨ kind = .whileBlock := by
  cases kind <;> simp [ScopeKind.isGuarded]

theorem lists_listed
    (id : ScopeId)
    (table : ScopeTable) :
    Lists id table (listed id table) := by
  have hSorted := table.pairwise_sortedEntries
  rw [listed]
  by_cases hGuarded : id.kind.isGuarded
  · rw [if_pos hGuarded]
    rw [isGuarded_iff] at hGuarded
    refine ⟨hSorted.filter _, ?_⟩
    intro key symbol
    simp [table.mem_sortedEntries_iff, Shows, hGuarded,
      Symbol.isVariable]
  · rw [if_neg hGuarded]
    rw [isGuarded_iff] at hGuarded
    refine ⟨hSorted, ?_⟩
    intro key symbol
    simp [table.mem_sortedEntries_iff, Shows, hGuarded]

end Report

end ScopeAnalysis

------------------------------------------------------------
-- Bodies Of Sections
------------------------------------------------------------

namespace ScopeAnalysis

namespace Report

variable {id : ScopeId}
variable {table : ScopeTable}

/-
  The line of an entry.  Blocks list their entries in short
  and all other scopes at length.
-/
def entryLine
    (id : ScopeId)
    (entry : String × Symbol) : String :=
  if id.kind.isGuarded ∨ id.kind = .elseBlock then
    shortEntry entry.1 entry.2
  else
    longEntry entry.1 entry.2

/-
  The banner is due in guarded blocks, and in all scopes but
  else-blocks when they are empty.
-/
def BannerDue
    (id : ScopeId)
    (table : ScopeTable) : Prop :=
  id.kind.isGuarded ∨
    (id.kind ≠ .elseBlock ∧ table.entries = [])

instance
    (id : ScopeId)
    (table : ScopeTable) :
    Decidable (BannerDue id table) := by
  unfold BannerDue
  infer_instance

theorem sortedEntries_eq_nil_iff :
    table.sortedEntries = [] ↔ table.entries = [] := by
  rw [← List.length_eq_zero_iff, ← List.length_eq_zero_iff,
    ScopeTable.sortedEntries, List.length_mergeSort]

/- The banner, if it is due, and the listed entries. -/
theorem entryLines_eq
    (id : ScopeId)
    (table : ScopeTable) :
    entryLines id table =
      (if BannerDue id table then [noEntriesBanner] else []) ++
        (listed id table).map (entryLine id) := by
  unfold entryLines listed BannerDue
  by_cases hGuarded : id.kind.isGuarded
  · have hLine :
        entryLine id = fun e => shortEntry e.1 e.2 :=
      funext fun _ => if_pos (.inl hGuarded)
    simp [hGuarded, hLine]
  · by_cases hElse : id.kind = .elseBlock
    · have hLine :
          entryLine id = fun e => shortEntry e.1 e.2 :=
        funext fun _ => if_pos (.inr hElse)
      simp [hElse, hLine, ScopeKind.isGuarded]
    · have hLine :
          entryLine id = fun e => longEntry e.1 e.2 :=
        funext fun _ => if_neg (by simp [hGuarded, hElse])
      by_cases hEmpty : table.entries = []
      · have hSorted := sortedEntries_eq_nil_iff.mpr hEmpty
        simp [hGuarded, hElse, hEmpty, hSorted]
      · have hSorted :=
          mt sortedEntries_eq_nil_iff.mp hEmpty
        simp [hGuarded, hElse, hEmpty, hSorted, hLine]

/- No entry looks like the banner. -/
theorem banner_ne_entryLine
    (entry : String × Symbol) :
    noEntriesBanner ≠ entryLine id entry := by
  have hKey :
      ∃ rest, entryLine id entry = "key = " ++ rest := by
    unfold entryLine shortEntry longEntry
    simp only [String.append_assoc]
    split
    · exact ⟨_, rfl⟩
    · exact ⟨_, rfl⟩
  rcases hKey with ⟨rest, hRest⟩
  rw [hRest]
  intro hEq
  have hFirst := congrArg (fun s => s.toList.head?) hEq
  simp [noEntriesBanner] at hFirst

/- The banner is written when it is due. -/
theorem banner_mem_iff :
    noEntriesBanner ∈ entryLines id table ↔
      BannerDue id table := by
  rw [entryLines_eq, List.mem_append, List.mem_map]
  constructor
  · rintro (hBanner | ⟨entry, _, hLine⟩)
    · by_contra hNot
      simp [hNot] at hBanner
    · exact (banner_ne_entryLine entry hLine.symm).elim
  · intro hDue
    left
    simp [hDue]

/-
  The line of an entry: its key, and behind that the name and
  the first line of its symbol in a block, or else all that
  is known about its symbol.
-/
structure Writes
    (id : ScopeId)
    (entry : String × Symbol)
    (line : String) : Prop where
  short :
    id.kind = .ifBlock ∨
        id.kind = .whileBlock ∨ id.kind = .elseBlock →
      line =
        "key = " ++ entry.1 ++
          ", value = (name: " ++ entry.2.name ++
          ") (first_appearance: " ++
          toString (entry.2.firstLine.getD 0) ++ ")"
  long :
    id.kind ≠ .ifBlock →
      id.kind ≠ .whileBlock →
        id.kind ≠ .elseBlock →
          line =
            "key = " ++ entry.1 ++ ", value = " ++
              entry.2.text

theorem writes_entryLine
    (id : ScopeId)
    (entry : String × Symbol) :
    Writes id entry (entryLine id entry) := by
  refine ⟨?_, ?_⟩
  · intro hBlock
    rw [← or_assoc, ← isGuarded_iff] at hBlock
    exact if_pos hBlock
  · intro hIf hWhile hElse
    have hOther :
        ¬ (id.kind.isGuarded ∨ id.kind = .elseBlock) := by
      simp [isGuarded_iff, hIf, hWhile, hElse]
    exact if_neg hOther

/-
  What stands between the header and the divider of a
  section: the entries that are to be listed, each with its
  own symbol, and at most the banner in front of them.
-/
structure Fills
    (id : ScopeId)
    (table : ScopeTable)
    (body : List String) : Prop where
  lists :
    ∃ front entries lines,
      Lists id table entries ∧
        (front = [] ∨
          front = ["                    !NO KEY FOUND!"]) ∧
        List.Forall₂ (Writes id) entries lines ∧
        body = front ++ lines
  banner_of_guarded :
    id.kind = .ifBlock ∨ id.kind = .whileBlock →
      "                    !NO KEY FOUND!" ∈ body
  no_banner_of_else :
    id.kind = .elseBlock →
      "                    !NO KEY FOUND!" ∉ body
  banner_iff_of_other :
    id.kind ≠ .ifBlock →
      id.kind ≠ .whileBlock →
        id.kind ≠ .elseBlock →
          ("                    !NO KEY FOUND!" ∈ body ↔
            table.entries = [])

theorem fills_entryLines
    (id : ScopeId)
    (table : ScopeTable) :
    Fills id table (entryLines id table) := by
  have hBanner := @banner_mem_iff id table
  rw [noEntriesBanner] at hBanner
  refine ⟨?_, ?_, ?_, ?_⟩
  · refine
      ⟨_, _, _, lists_listed id table, ?_, ?_,
        entryLines_eq id table⟩
    · by_cases hDue : BannerDue id table
      · exact .inr (if_pos hDue)
      · exact .inl (if_neg hDue)
    · rw [List.forall₂_map_right_iff, List.forall₂_same]
      exact fun entry _ => writes_entryLine id entry
  · intro hGuarded
    rw [hBanner]
    exact .inl (isGuarded_iff.mpr hGuarded)
  · intro hElse
    rw [hBanner, BannerDue, hElse]
    simp [ScopeKind.isGuarded]
  · intro hIf hWhile hElse
    rw [hBanner, BannerDue, isGuarded_iff]
    simp [hIf, hWhile, hElse]

end Report

end ScopeAnalysis

------------------------------------------------------------
-- Whole Reports
------------------------------------------------------------

namespace ScopeAnalysis

namespace Report

/- Only what keys are mapped to shows in a section. -/
theorem sectionLines_congr
    {t u : ScopeTable}
    (id : ScopeId)
    (hSame : ∀ key, u.get? key = t.get? key) :
    sectionLines id u = sectionLines id t := by
  have hListed : listed id u = listed id t :=
    (lists_listed id t).unique (lists_listed id u) hSame
  have hEmpty : u.entries = [] ↔ t.entries = [] := by
    simp only [List.eq_nil_iff_forall_not_mem, Prod.forall,
      OrderedMap.mem_entries_iff, hSame]
  have hDue : BannerDue id u ↔ BannerDue id t := by
    rw [BannerDue, BannerDue, hEmpty]
  have hBody : entryLines id u = entryLines id t := by
    rw [entryLines_eq, entryLines_eq, hListed,
      if_congr hDue rfl rfl]
  rw [sectionLines, sectionLines, hBody]

/- The header of a scope, a body, and a line of dashes. -/
def Encloses
    (id : ScopeId)
    (body lines : List String) : Prop :=
  lines =
    ("-------------------- " ++ id.text ++
      " --------------------") ::
    body ++
    ["------------------------------------------------------"]

end Report

/- The scopes in order of discovery with their tables. -/
theorem Registry.entries_scopes_eq
    (r : Registry) :
    r.scopes.entries =
      r.discoveryOrder.map fun id => (id, r.tableOf id) := by
  rw [discoveryOrder, OrderedMap.keys, List.map_map]
  calc
    r.scopes.entries
        = r.scopes.entries.map fun e => e :=
          (List.map_id' _).symm
    _ = r.scopes.entries.map
          ((fun id => (id, r.tableOf id)) ∘ Prod.fst) := by
          apply List.map_congr_left
          intro e he
          have hTable : r.table? e.1 = some e.2 :=
            Entries.lookup_of_mem r.scopes.nodup_keys he
          rw [Function.comp_apply, tableOf, hTable,
            Option.getD_some]

namespace Report

/-
  A report on a registry.  Its text is that of lines with an
  end each: behind the header there is one section for each
  scope in order of discovery, the global scope first.  Any
  way to sort the entries of a table gives the same list, and
  registries that agree on the order and on what is looked up
  have the same report.
-/
structure Covers
    (source : String)
    (r : Registry) : Prop where
  sections :
    ∃ sections,
      List.Forall₂
          (fun id lines =>
            ∃ table body,
              r.table? id = some table ∧
                Encloses id body lines ∧
                Fills id table body)
          r.discoveryOrder sections ∧
        text source r =
          String.join
            ((("------------------ program:\"" ++ source ++
                  "\" ------------------") ::
                sections.flatten).map
              fun line => line ++ "\n")
  global_first : r.discoveryOrder.head? = some .global
  once : r.discoveryOrder.Nodup
  sorted_any_way :
    ∀ id table entries,
      r.table? id = some table →
        entries.Perm table.entries →
          (entries.Pairwise fun a b => ¬ KeyLess b a) →
            entries = table.sortedEntries
  canonical :
    ∀ s : Registry,
      s.discoveryOrder = r.discoveryOrder →
        (∀ id key, s.lookup id key = r.lookup id key) →
          text source s = text source r

/- The lines of a report are told scope by scope. -/
theorem lines_eq
    (source : String)
    (r : Registry) :
    lines source r =
      header source ::
        (r.discoveryOrder.map fun id =>
          sectionLines id (r.tableOf id)).flatten := by
  rw [lines, Registry.entries_scopes_eq, List.flatMap_def,
    List.map_map]
  rfl

/- After every history a report covers the registry. -/
theorem covers_afterOps
    (source : String)
    (ops : List RegistryOp) :
    Covers source (Registry.initial.afterOps ops) := by
  have hOrder :=
    (Registry.Discovers.initial.afterOps ops).order
  generalize Registry.initial.afterOps ops = r at hOrder
  refine ⟨⟨_, ?_, congrArg textOfLines (lines_eq source r)⟩,
    ?_, r.scopes.nodup_keys, ?_, ?_⟩
  · rw [List.forall₂_map_right_iff, List.forall₂_same]
    intro id hId
    rcases (r.mem_discoveryOrder_iff id).mp hId with
      ⟨table, hTable⟩
    refine
      ⟨table, entryLines id table, hTable, ?_,
        fills_entryLines id table⟩
    rw [Registry.tableOf, hTable, Option.getD_some]
    rfl
  · rw [hOrder, List.singleton_append, List.eraseDups_cons,
      List.head?_cons]
  · intro id table entries _ hPerm hSorted
    exact ScopeTable.eq_sortedEntries hPerm hSorted
  · intro s hSameOrder hSame
    rw [text, text, lines_eq, lines_eq, hSameOrder]
    congr 3
    apply List.map_congr_left
    intro id _
    exact sectionLines_congr id (hSame id)

/- A class, a loop with a variable and an else-branch. -/
def sampleOps : List RegistryOp :=
  [ .declare .global "class_A" (.ofClass "A" none none)
      ⟨1, 0⟩,
    .enter (.ofWhile 2 5),
    .declareHere "while_loop"
      (.ofBlock .loopMarker "while_2_5" 2) ⟨2, 4⟩,
    .declareHere "var_x" (.ofVariable "x" 3) ⟨3, 8⟩,
    .exit,
    .enter (.ofElse 6 7),
    .declareHere "var_z" (.ofVariable "z" 7) ⟨7, 8⟩,
    .declareHere "var_y" (.ofVariable "y" 6) ⟨6, 8⟩,
    .exit,
    .enter (.ofClass "A") ]

/- Their report, line by line. -/
theorem covers_sampleOps :
    Covers "main.japy"
        (Registry.initial.afterOps sampleOps) ∧
      text "main.japy"
          (Registry.initial.afterOps sampleOps) =
        "------------------ program:\"main.japy\"" ++
          " ------------------\n" ++
        "-------------------- global" ++
          " --------------------\n" ++
        "key = class_A, value = \x7bkind='class'," ++
          " name='A', accessModifier='default'\x7d\n" ++
        "---------------------------" ++
          "---------------------------\n" ++
        "-------------------- while_2_5" ++
          " --------------------\n" ++
        "                    !NO KEY FOUND!\n" ++
        "key = var_x, value = (name: x)" ++
          " (first_appearance: 3)\n" ++
        "---------------------------" ++
          "---------------------------\n" ++
        "-------------------- else_6_7" ++
          " --------------------\n" ++
        "key = var_y, value = (name: y)" ++
          " (first_appearance: 6)\n" ++
        "key = var_z, value = (name: z)" ++
          " (first_appearance: 7)\n" ++
        "---------------------------" ++
          "---------------------------\n" ++
        "-------------------- class_A" ++
          " --------------------\n" ++
        "                    !NO KEY FOUND!\n" ++
        "---------------------------" ++
          "---------------------------\n" := by
  refine ⟨covers_afterOps "main.japy" sampleOps, ?_⟩
  let r := Registry.initial.afterOps sampleOps
  have hOrder :
      r.discoveryOrder =
        [.global, .ofWhile 2 5, .ofElse 6 7, .ofClass "A"] := by
    decide +kernel
  -- Sorting does not compute, but sorted lists are unique.
  have hSorted :
      ∀ id entries,
        entries.Perm (r.tableOf id).entries →
          (entries.Pairwise fun a b => ¬ KeyLess b a) →
            (r.tableOf id).sortedEntries = entries :=
    fun _ _ hPerm hUp =>
      (ScopeTable.eq_sortedEntries hPerm hUp).symm
  have hGlobal :=
    hSorted .global
      [("class_A", .ofClass "A" none none)]
      (by decide +kernel) (by decide +kernel)
  have hLoop :=
    hSorted (.ofWhile 2 5)
      [ ("var_x", .ofVariable "x" 3),
        ("while_loop", .ofBlock .loopMarker "while_2_5" 2) ]
      (by decide +kernel) (by decide +kernel)
  have hElse :=
    hSorted (.ofElse 6 7)
      [ ("var_y", .ofVariable "y" 6),
        ("var_z", .ofVariable "z" 7) ]
      (by decide +kernel) (by decide +kernel)
  have hClass :=
    hSorted (.ofClass "A") []
      (by decide +kernel) (by decide +kernel)
  rw [text, lines_eq, hOrder]
  simp only [List.map_cons, List.map_nil, sectionLines,
    entryLines, hGlobal, hLoop, hElse, hClass, r]
  decide +kernel

end Report

end ScopeAnalysis
