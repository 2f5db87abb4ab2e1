import ScopeAnalysis.Proofs.Unlimited

/-
  Passes over a sink that takes only so many bytes.

  Key definitions include:
    * `Sink.bounded`
    * `Pass.bounded`
    * `Pass.CutShort`
    * `Truncates`

  Key theorems include:
    * `PassM.Diagnosing.tracks`
    * `runPass_truncates`

  A pass over a bounded sink does what it would do without
  the bound, up to the first text that does not fit whole.
  The unbounded pass only grows from there on, so all that
  the bounded one has found and stored lies within what the
  unbounded one finds in the end.
-/

------------------------------------------------------------
-- Bounded Sinks
------------------------------------------------------------

namespace ScopeAnalysis

/- What is no longer than the extract is extracted whole. -/
theorem extract_of_size_le
    {a : ByteArray}
    {n : Nat}
    (h : a.size ≤ n) :
    a.extract 0 n = a := by
  have hMax := @ByteArray.extract_zero_max_size a n
  rwa [Nat.max_eq_left h] at hMax

/- Bytes behind the end of an extract do not matter. -/
theorem extract_append_of_le
    {a : ByteArray}
    {n : Nat}
    (h : n ≤ a.size)
    (b : ByteArray) :
    (a ++ b).extract 0 n = a.extract 0 n := by
  have hNone : n - a.size = 0 := by omega
  rw [ByteArray.extract_append, hNone, Nat.zero_sub]
  simp

/- An extract that ends further back ends in the rest. -/
theorem extract_append_of_ge
    {a : ByteArray}
    {n : Nat}
    (h : a.size ≤ n)
    (b : ByteArray) :
    (a ++ b).extract 0 n = a ++ b.extract 0 (n - a.size) := by
  rw [ByteArray.extract_append, extract_of_size_le h,
    Nat.zero_sub]

namespace Sink

/- An empty sink that takes so many bytes. -/
def bounded
    (limit : Nat)
    (stalls : Bool) : Sink where
  limit := some limit
  stalls := stalls
  refusesFlush := false
  kept := .empty

/- A text that fits is written whole. -/
theorem write_of_fits
    {s : Sink}
    {limit : Nat}
    {text : String}
    (hLimit : s.limit = some limit)
    (hFits : s.kept.size + text.toUTF8.size ≤ limit) :
    s.write text =
      (.ok (), { s with kept := s.kept ++ text.toUTF8 }) := by
  have hRoom : s.room text.toUTF8.size = text.toUTF8.size := by
    simp only [room, hLimit]
    omega
  have hWhole :
      text.toUTF8.extract 0 text.toUTF8.size =
        text.toUTF8 :=
    ByteArray.extract_zero_size
  simp only [write, hRoom, hWhole, if_pos]

/- A text that does not fit is cut off at the limit. -/
theorem write_of_overflow
    {s : Sink}
    {limit : Nat}
    {text : String}
    (hLimit : s.limit = some limit)
    (hKept : s.kept.size ≤ limit)
    (hOver : limit < s.kept.size + text.toUTF8.size) :
    s.write text =
      (.error s.fullError,
        { s with
          kept :=
            (s.kept ++ text.toUTF8).extract 0 limit }) := by
  have hRoom :
      s.room text.toUTF8.size = limit - s.kept.size := by
    simp only [room, hLimit]
    omega
  have hShort : limit - s.kept.size ≠ text.toUTF8.size := by
    omega
  rw [extract_append_of_ge hKept]
  simp only [write, hRoom, if_neg hShort]

end Sink

end ScopeAnalysis

------------------------------------------------------------
-- Bounded Passes
------------------------------------------------------------

namespace ScopeAnalysis

namespace Pass

open Reporter

/- The same pass over a sink with a bound. -/
def bounded
    (p : Pass)
    (limit : Nat)
    (stalls : Bool) : Pass :=
  p.withReporter
    ⟨{ Sink.bounded limit stalls with
        kept := p.reporter.sink.kept },
      p.diagnostics⟩

/-
  What a bounded pass has come to when the line of a
  diagnostic did not fit, against the pass that went on.
-/
structure CutShort
    (limit : Nat)
    (cut whole : Pass) : Prop where
  registry : cut.registry.Within whole.registry
  fits : linesSize cut.diagnostics ≤ limit
  stopped :
    ∃ d,
      cut.diagnostics ++ [d] <+: whole.diagnostics ∧
        limit < linesSize (cut.diagnostics ++ [d])
  kept :
    cut.reporter.sink.kept =
      (linesText whole.diagnostics).toUTF8.extract 0 limit

/- What was cut short stays so when the other goes on. -/
theorem CutShort.grows
    {limit : Nat}
    {cut whole more : Pass}
    (hCut : cut.CutShort limit whole)
    (hGrows : whole.Grows more) :
    cut.CutShort limit more := by
  rcases hCut.stopped with ⟨d, hPrefix, hOver⟩
  refine
    ⟨hCut.registry.trans hGrows.registry, hCut.fits,
      ⟨d, hPrefix.trans hGrows.diagnostics, hOver⟩, ?_⟩
  have hSize : limit ≤ linesSize whole.diagnostics := by
    have hLe := linesSize_le_of_prefix hPrefix
    omega
  rcases hGrows.diagnostics with ⟨rest, hRest⟩
  rw [hCut.kept, ← hRest, linesText_append]
  simp only [String.toUTF8_eq_toByteArray,
    String.toByteArray_append]
  exact (extract_append_of_le hSize _).symm

/- A diagnostic whose line fits is raised. -/
theorem Writing.bounded_report_of_fits
    {p : Pass}
    (hp : p.Writing)
    {d : Diagnostic}
    {limit : Nat}
    (stalls : Bool)
    (hFits : linesSize (p.diagnostics ++ [d]) ≤ limit) :
    (p.bounded limit stalls).report d =
      (.ok (), (p.raise d).bounded limit stalls) := by
  have hRoom :
      p.reporter.sink.kept.size +
          (lineOf d).toUTF8.size ≤ limit := by
    rw [linesSize_append] at hFits
    rw [hp.size_kept]
    simpa [linesSize, linesText_singleton] using hFits
  exact report_of_emit (emit_of_ok (Sink.write_of_fits rfl hRoom))

/- A diagnostic whose line does not fit ends a pass. -/
theorem Writing.bounded_report_of_overflow
    {p : Pass}
    (hp : p.Writing)
    {d : Diagnostic}
    {limit : Nat}
    (stalls : Bool)
    (hKept : linesSize p.diagnostics ≤ limit)
    (hOver : limit < linesSize (p.diagnostics ++ [d])) :
    ∃ e cut,
      (p.bounded limit stalls).report d = (.error e, cut) ∧
        cut.CutShort limit (p.raise d) := by
  have hSize : p.reporter.sink.kept.size ≤ limit := by
    rw [hp.size_kept]
    exact hKept
  have hRoom :
      limit <
        p.reporter.sink.kept.size +
          (lineOf d).toUTF8.size := by
    rw [linesSize_append] at hOver
    rw [hp.size_kept]
    simpa [linesSize, linesText_singleton] using hOver
  refine
    ⟨_, _,
      report_of_emit
        (emit_of_error
          (Sink.write_of_overflow rfl hSize hRoom)),
      ?_⟩
  refine
    ⟨Registry.Within.refl _, hKept,
      ⟨d, List.prefix_refl _, hOver⟩, ?_⟩
  rw [← (hp.raise d).kept]
  rfl

end Pass

namespace PassM

open Reporter

variable {α : Type}

/-
  A diagnosing action either fits, and then the bound makes
  no difference, or it is cut short.
-/
theorem Diagnosing.tracks
    {a : PassM α}
    (ha : Diagnosing a)
    {p q : Pass}
    {x : α}
    {limit : Nat}
    (stalls : Bool)
    (hp : p.Writing)
    (hKept : linesSize p.diagnostics ≤ limit)
    (hRun : a.runOn p = (.ok x, q)) :
    (linesSize q.diagnostics ≤ limit ∧
      a.runOn (p.bounded limit stalls) =
        (.ok x, q.bounded limit stalls)) ∨
      ∃ e cut,
        a.runOn (p.bounded limit stalls) = (.error e, cut) ∧
          cut.CutShort limit q := by
  induction ha generalizing p q with
  | pure y =>
      cases hRun
      exact .inl ⟨hKept, rfl⟩
  | step hAnswer hSilent =>
      cases hRun
      refine .inl ⟨?_, ?_⟩
      · rw [Pass.diagnostics, hSilent.reporter_eq p]
        exact hKept
      · rw [runOn_step, Pass.bounded, hAnswer,
          hSilent.blind p, Pass.bounded, Pass.diagnostics,
          Pass.diagnostics, hSilent.reporter_eq p]
  | report d =>
      have hReport := hp.report_eq d
      rw [PassM.report, runOn_attempt, hReport] at hRun
      cases hRun
      by_cases hFits :
          linesSize (p.diagnostics ++ [d]) ≤ limit
      · exact .inl
          ⟨hFits, hp.bounded_report_of_fits stalls hFits⟩
      · exact .inr
          (hp.bounded_report_of_overflow stalls hKept
            (by omega))
  | bind ha hf ihFirst ihSecond =>
      rcases ha.proceeds hp with ⟨y, r, hFirst, hr, _⟩
      rcases (hf y).proceeds hr with
        ⟨z, s, hSecond, _, hGrows⟩
      rw [runOn_bind, hFirst] at hRun
      have hEnd := hSecond.symm.trans hRun
      cases hEnd
      rw [runOn_bind]
      rcases ihFirst hp hKept hFirst with
        ⟨hFits, hBounded⟩ | ⟨e, cut, hBounded, hCut⟩
      · rw [hBounded]
        exact ihSecond y hr hFits hSecond
      · rw [hBounded]
        exact .inr ⟨e, cut, rfl, hCut.grows hGrows⟩

end PassM

end ScopeAnalysis

------------------------------------------------------------
-- Bounded Analyses
------------------------------------------------------------

namespace ScopeAnalysis

open Reporter

namespace Pass

/- The size of a finished output. -/
theorem Writing.size_finish
    {p : Pass}
    (hp : p.Writing) :
    p.finish.output.toUTF8.size =
      p.reporter.sink.kept.size +
        (Report.text p.source p.registry).toUTF8.size := by
  rw [hp.output_finish, hp.kept]
  simp [ByteArray.size_append]

/- A report that fits is written. -/
theorem Writing.bounded_writeReport_of_fits
    {p : Pass}
    (hp : p.Writing)
    {limit : Nat}
    (stalls : Bool)
    (hFits : p.finish.output.toUTF8.size ≤ limit) :
    (p.bounded limit stalls).writeReport p.source =
      (.ok (), p.finish.bounded limit stalls) := by
  rw [hp.size_finish] at hFits
  exact writeReport_of_reporter
    (writeReport_of_ok (Sink.write_of_fits rfl hFits) rfl)

/- A report that does not fit is cut off at the limit. -/
theorem Writing.bounded_writeReport_of_overflow
    {p : Pass}
    (hp : p.Writing)
    {limit : Nat}
    (stalls : Bool)
    (hKept : linesSize p.diagnostics ≤ limit)
    (hOver : limit < p.finish.output.toUTF8.size) :
    ∃ e cut,
      (p.bounded limit stalls).writeReport p.source =
          (.error e, cut) ∧
        cut.registry = p.registry ∧
        cut.diagnostics = p.diagnostics ∧
        cut.reporter.sink.kept =
          p.finish.output.toUTF8.extract 0 limit := by
  rw [hp.size_finish] at hOver
  rw [← hp.size_kept] at hKept
  refine
    ⟨_, _,
      writeReport_of_reporter
        (writeReport_of_error
          (Sink.write_of_overflow rfl hKept hOver)),
      rfl, rfl, ?_⟩
  rw [hp.output_finish, ← hp.kept_finish]
  rfl

end Pass

/-
  How an analysis over a sink that takes so many bytes is
  related to the same one over a sink that takes everything.
  Its diagnostics are the longest prefix of the others whose
  lines fit.
-/
structure Truncates
    (limit : Nat)
    (whole cut : Except SinkError Unit × Pass) : Prop where
  whole_ends : whole.1 = .ok ()
  whole_kept :
    whole.2.reporter.sink.kept = whole.2.output.toUTF8
  ends_iff :
    cut.1 = .ok () ↔ whole.2.output.toUTF8.size ≤ limit
  kept :
    cut.2.reporter.sink.kept =
      whole.2.output.toUTF8.extract 0
        (min limit whole.2.output.toUTF8.size)
  same :
    cut.1 = .ok () →
      cut.2.diagnostics = whole.2.diagnostics ∧
        cut.2.registry = whole.2.registry
  diagnostics_prefix :
    cut.2.diagnostics <+: whole.2.diagnostics
  diagnostics_fit : linesSize cut.2.diagnostics ≤ limit
  diagnostics_longest :
    ∀ ds,
      ds <+: whole.2.diagnostics →
        linesSize ds ≤ limit →
          ds <+: cut.2.diagnostics
  registry : cut.2.registry.Within whole.2.registry

namespace Pass

/- The lines come before the report. -/
theorem Writing.linesSize_le_finish
    {p : Pass}
    (hp : p.Writing) :
    linesSize p.diagnostics ≤ p.finish.output.toUTF8.size := by
  rw [hp.size_finish, hp.size_kept]
  omega

/- Nothing is cut off what fits whole. -/
theorem Writing.truncates_of_fits
    {p : Pass}
    (hp : p.Writing)
    {limit : Nat}
    (stalls : Bool)
    (hFits : p.finish.output.toUTF8.size ≤ limit) :
    Truncates limit (.ok (), p.finish)
      (.ok (), p.finish.bounded limit stalls) := by
  have hKept :
      p.finish.reporter.sink.kept = p.finish.output.toUTF8 := by
    rw [hp.kept_finish, hp.output_finish]
  refine
    { whole_ends := rfl
      whole_kept := hKept
      ends_iff := iff_of_true rfl hFits
      kept := ?_
      same := fun _ => ⟨rfl, rfl⟩
      diagnostics_prefix := List.prefix_refl _
      diagnostics_fit :=
        Nat.le_trans hp.linesSize_le_finish hFits
      diagnostics_longest := fun _ hPrefix _ => hPrefix
      registry := Registry.Within.refl _ }
  rw [Nat.min_eq_right hFits, ByteArray.extract_zero_size,
    ← hKept]
  rfl

/- What is cut off has failed and holds the limit. -/
theorem Writing.truncates_of_error
    {p cut : Pass}
    (hp : p.Writing)
    {limit : Nat}
    (e : SinkError)
    (hOver : limit < p.finish.output.toUTF8.size)
    (hKept :
      cut.reporter.sink.kept =
        p.finish.output.toUTF8.extract 0 limit)
    (hPrefix : cut.diagnostics <+: p.diagnostics)
    (hFit : linesSize cut.diagnostics ≤ limit)
    (hLongest :
      ∀ ds,
        ds <+: p.diagnostics →
          linesSize ds ≤ limit →
            ds <+: cut.diagnostics)
    (hRegistry : cut.registry.Within p.registry) :
    Truncates limit (.ok (), p.finish) (.error e, cut) := by
  have hMin :
      min limit p.finish.output.toUTF8.size = limit :=
    Nat.min_eq_left (Nat.le_of_lt hOver)
  refine
    { whole_ends := rfl
      whole_kept := by
        rw [hp.kept_finish, hp.output_finish]
      ends_iff :=
        iff_of_false (fun h => by cases h)
          (Nat.not_le.mpr hOver)
      kept := ?_
      same := fun h => by cases h
      diagnostics_prefix := hPrefix
      diagnostics_fit := hFit
      diagnostics_longest := hLongest
      registry := hRegistry }
  rw [hMin]
  exact hKept

/- A pass that only its report does not fit is cut there. -/
theorem Writing.truncates_of_overflow
    {p cut : Pass}
    (hp : p.Writing)
    {limit : Nat}
    (e : SinkError)
    (hLines : linesSize p.diagnostics ≤ limit)
    (hOver : limit < p.finish.output.toUTF8.size)
    (hRegistry : cut.registry = p.registry)
    (hDiagnostics : cut.diagnostics = p.diagnostics)
    (hKept :
      cut.reporter.sink.kept =
        p.finish.output.toUTF8.extract 0 limit) :
    Truncates limit (.ok (), p.finish) (.error e, cut) := by
  apply hp.truncates_of_error e hOver hKept
  · simp only [hDiagnostics, List.prefix_rfl]
  · rw [hDiagnostics]
    exact hLines
  · intro ds hPrefix _
    rw [hDiagnostics]
    exact hPrefix
  · rw [hRegistry]
    exact Registry.Within.refl _

/-
  Of two prefixes the one that fits is the shorter, so what
  was kept at the first line that did not fit is the longest
  prefix that fits.
-/
theorem CutShort.longest
    {limit : Nat}
    {cut whole : Pass}
    (hCut : cut.CutShort limit whole)
    {ds : List Diagnostic}
    (hPrefix : ds <+: whole.diagnostics)
    (hFits : linesSize ds ≤ limit) :
    ds <+: cut.diagnostics := by
  rcases hCut.stopped with ⟨d, hStopped, hOver⟩
  have hLength : ds.length < (cut.diagnostics ++ [d]).length := by
    by_contra hLonger
    have hSize :=
      linesSize_le_of_prefix
        (List.prefix_of_prefix_length_le hStopped hPrefix
          (by omega))
    omega
  rw [List.length_append, List.length_singleton] at hLength
  exact List.prefix_of_prefix_length_le hPrefix
    ((List.prefix_append _ _).trans hStopped) (by omega)

/- A pass that a diagnostic does not fit is cut there. -/
theorem Writing.truncates_of_cutShort
    {p cut : Pass}
    (hp : p.Writing)
    {limit : Nat}
    (e : SinkError)
    (hCut : cut.CutShort limit p) :
    Truncates limit (.ok (), p.finish) (.error e, cut) := by
  have hOver : limit < linesSize p.diagnostics := by
    rcases hCut.stopped with ⟨d, hStopped, hOver⟩
    have hLe := linesSize_le_of_prefix hStopped
    omega
  have hSize : limit < p.finish.output.toUTF8.size :=
    Nat.lt_of_lt_of_le hOver hp.linesSize_le_finish
  apply hp.truncates_of_error e hSize
  · rw [hCut.kept, hp.output_finish]
    simp only [String.toUTF8_eq_toByteArray,
      String.toByteArray_append]
    exact
      (extract_append_of_le (Nat.le_of_lt hOver) _).symm
  · rcases hCut.stopped with ⟨d, hStopped, _⟩
    exact (List.prefix_append _ _).trans hStopped
  · exact hCut.fits
  · intro ds hPrefix hFits
    exact hCut.longest hPrefix hFits
  · exact hCut.registry

end Pass

/-
  An analysis over a bounded sink is the beginning of the
  same analysis over a sink that takes everything.
-/
theorem runPass_truncates
    (options : Options)
    (program : Program)
    (limit : Nat)
    (stalls : Bool) :
    Truncates limit
      (runPass options .unlimited program)
      (runPass options (.bounded limit stalls) program) := by
  rcases runPass_unlimited options program with
    ⟨q, hGather, hq, hWhole⟩
  have hBounded :
      runPass options (.bounded limit stalls) program =
        (PassM.analyze program).runOn
          ((Pass.start options .unlimited).bounded
            limit stalls) :=
    rfl
  rw [hWhole, hBounded, PassM.analyze_eq, PassM.runOn_bind]
  rcases (PassM.diagnosing_gather program).tracks stalls
      (Pass.writing_start options) (Nat.zero_le limit)
      hGather with
    ⟨hLines, hRun⟩ | ⟨e, cut, hRun, hCut⟩
  · rw [hRun]
    by_cases hFits :
        q.finish.output.toUTF8.size ≤ limit
    · have hReport :
          PassM.exitProgram.runOn (q.bounded limit stalls) =
            (.ok (), q.finish.bounded limit stalls) :=
        hq.bounded_writeReport_of_fits stalls hFits
      simp only [hReport]
      exact hq.truncates_of_fits stalls hFits
    · have hOver :
          limit < q.finish.output.toUTF8.size := by
        omega
      rcases hq.bounded_writeReport_of_overflow stalls
          hLines hOver with
        ⟨e, cut, hWrite, hRegistry, hDiagnostics, hKept⟩
      have hReport :
          PassM.exitProgram.runOn (q.bounded limit stalls) =
            (.error e, cut) :=
        hWrite
      simp only [hReport]
      exact hq.truncates_of_overflow e hLines hOver
        hRegistry hDiagnostics hKept
  · rw [hRun]
    exact hq.truncates_of_cutShort e hCut

end ScopeAnalysis
