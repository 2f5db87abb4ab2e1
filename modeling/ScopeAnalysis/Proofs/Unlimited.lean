import ScopeAnalysis.Proofs.Diagnosing

/-
  Passes over a sink that takes everything.

  Key definitions include:
    * `Reporter.linesText`
    * `Pass.raise`
    * `Pass.Writing`
    * `Pass.Grows`
    * `Pass.finish`
    * `PassM.gather`

  Key theorems include:
    * `Pass.Writing.report_eq`
    * `PassM.Diagnosing.proceeds`
    * `runPass_unlimited`
    * `analyzeWith_of_runPass`

  Without a limit nothing fails, and the sink always holds
  the lines of the diagnostics raised so far.
-/

------------------------------------------------------------
-- Lines
------------------------------------------------------------

namespace ScopeAnalysis

namespace Reporter

/- The lines of diagnostics, one after the other. -/
def linesText (ds : List Diagnostic) : String :=
  String.join (ds.map lineOf)

/- The number of bytes in the lines of diagnostics. -/
def linesSize (ds : List Diagnostic) : Nat :=
  (linesText ds).toUTF8.size

theorem linesText_append
    (ds es : List Diagnostic) :
    linesText (ds ++ es) = linesText ds ++ linesText es := by
  rw [linesText, List.map_append, String.join_append]
  rfl

theorem linesText_singleton
    (d : Diagnostic) :
    linesText [d] = lineOf d := by
  simp [linesText]

theorem linesSize_append
    (ds es : List Diagnostic) :
    linesSize (ds ++ es) = linesSize ds + linesSize es := by
  simp [linesSize, linesText_append, ByteArray.size_append]

/- More diagnostics have no fewer bytes. -/
theorem linesSize_le_of_prefix
    {ds es : List Diagnostic}
    (h : ds <+: es) :
    linesSize ds ≤ linesSize es := by
  rcases h with ⟨more, rfl⟩
  rw [linesSize_append]
  omega

/- A diagnostic is kept when its line was written. -/
theorem emit_of_ok
    {r : Reporter}
    {d : Diagnostic}
    {sink : Sink}
    (h : r.sink.write (lineOf d) = (.ok (), sink)) :
    r.emit d = (.ok (), ⟨sink, r.diagnostics ++ [d]⟩) := by
  rw [emit, h]

/- A diagnostic is not kept when its line was cut off. -/
theorem emit_of_error
    {r : Reporter}
    {d : Diagnostic}
    {e : SinkError}
    {sink : Sink}
    (h : r.sink.write (lineOf d) = (.error e, sink)) :
    r.emit d = (.error e, ⟨sink, r.diagnostics⟩) := by
  rw [emit, h]

/- A report that was written ends with a flush. -/
theorem writeReport_of_ok
    {r : Reporter}
    {source : String}
    {registry : Registry}
    {sink : Sink}
    (h :
      r.sink.write (Report.text source registry) =
        (.ok (), sink))
    (hFlushes : sink.refusesFlush = false) :
    r.writeReport source registry =
      (.ok (), ⟨sink, r.diagnostics⟩) := by
  rw [writeReport, h]
  simp [Sink.flush, hFlushes]

/- A report that was cut off is not followed by a flush. -/
theorem writeReport_of_error
    {r : Reporter}
    {source : String}
    {registry : Registry}
    {e : SinkError}
    {sink : Sink}
    (h :
      r.sink.write (Report.text source registry) =
        (.error e, sink)) :
    r.writeReport source registry =
      (.error e, ⟨sink, r.diagnostics⟩) := by
  rw [writeReport, h]

end Reporter

/- A sink without a limit takes every text whole. -/
theorem Sink.write_of_unlimited
    {s : Sink}
    (h : s.limit = none)
    (text : String) :
    s.write text =
      (.ok (), { s with kept := s.kept ++ text.toUTF8 }) := by
  have hWhole :
      text.toUTF8.extract 0 text.toUTF8.size =
        text.toUTF8 :=
    ByteArray.extract_zero_size
  simp only [write, room, h, hWhole, if_pos]

end ScopeAnalysis

------------------------------------------------------------
-- Raising Diagnostics
------------------------------------------------------------

namespace ScopeAnalysis

namespace Pass

/- Raise a diagnostic whose line is written whole. -/
def raise
    (p : Pass)
    (d : Diagnostic) : Pass :=
  (p.note (.diagnosticRaised d)).withReporter
    ⟨{ p.reporter.sink with
        kept :=
          p.reporter.sink.kept ++
            (Reporter.lineOf d).toUTF8 },
      p.diagnostics ++ [d]⟩

@[simp] theorem diagnostics_raise
    (p : Pass)
    (d : Diagnostic) :
    (p.raise d).diagnostics = p.diagnostics ++ [d] :=
  rfl

/- A report changes a pass as its reporter says. -/
theorem report_of_emit
    {p : Pass}
    {d : Diagnostic}
    {outcome : Except SinkError Unit}
    {reporter : Reporter}
    (h : p.reporter.emit d = (outcome, reporter)) :
    p.report d =
      (outcome,
        (p.note (.diagnosticRaised d)).withReporter
          reporter) := by
  rw [report, h]
  rfl

/- Without a limit a report raises its diagnostic. -/
theorem report_of_unlimited
    {p : Pass}
    (h : p.reporter.sink.limit = none)
    (d : Diagnostic) :
    p.report d = (.ok (), p.raise d) :=
  report_of_emit
    (Reporter.emit_of_ok (Sink.write_of_unlimited h _))

/-
  A pass over a sink that takes everything and has taken the
  lines of the diagnostics raised so far.
-/
structure Writing (p : Pass) : Prop where
  limit : p.reporter.sink.limit = none
  flushes : p.reporter.sink.refusesFlush = false
  kept :
    p.reporter.sink.kept =
      (Reporter.linesText p.diagnostics).toUTF8

theorem writing_start
    (options : Options) :
    (start options .unlimited).Writing :=
  ⟨rfl, rfl, rfl⟩

/- The lines of a writing pass are what its sink holds. -/
theorem Writing.size_kept
    {p : Pass}
    (hp : p.Writing) :
    p.reporter.sink.kept.size =
      Reporter.linesSize p.diagnostics := by
  rw [hp.kept]
  rfl

theorem Writing.silent
    {p : Pass}
    (hp : p.Writing)
    {f : Pass → Pass}
    (hf : Silent f) :
    (f p).Writing := by
  have hReporter := hf.reporter_eq p
  refine ⟨?_, ?_, ?_⟩
  · rw [hReporter]
    exact hp.limit
  · rw [hReporter]
    exact hp.flushes
  · rw [diagnostics, hReporter]
    exact hp.kept

theorem Writing.raise
    {p : Pass}
    (hp : p.Writing)
    (d : Diagnostic) :
    (p.raise d).Writing := by
  refine ⟨hp.limit, hp.flushes, ?_⟩
  rw [diagnostics_raise, Reporter.linesText_append,
    Reporter.linesText_singleton]
  simp [Pass.raise, withReporter, hp.kept]

/- A writing pass raises every diagnostic. -/
theorem Writing.report_eq
    {p : Pass}
    (hp : p.Writing)
    (d : Diagnostic) :
    p.report d = (.ok (), p.raise d) :=
  report_of_unlimited hp.limit d

end Pass

end ScopeAnalysis

------------------------------------------------------------
-- Growing Passes
------------------------------------------------------------

namespace ScopeAnalysis

namespace Pass

/- What one pass has found and stored, the other has too. -/
structure Grows (p q : Pass) : Prop where
  registry : p.registry.Within q.registry
  diagnostics : p.diagnostics <+: q.diagnostics

theorem Grows.refl
    (p : Pass) :
    p.Grows p :=
  ⟨Registry.Within.refl _, List.prefix_refl _⟩

theorem Grows.trans
    {p q r : Pass}
    (h₁ : p.Grows q)
    (h₂ : q.Grows r) :
    p.Grows r :=
  ⟨h₁.registry.trans h₂.registry,
    h₁.diagnostics.trans h₂.diagnostics⟩

theorem grows_silent
    {f : Pass → Pass}
    (hf : Silent f)
    (p : Pass) :
    p.Grows (f p) := by
  refine ⟨hf.within p, ?_⟩
  simp only [diagnostics, hf.reporter_eq p,
    List.prefix_rfl]

theorem grows_raise
    (p : Pass)
    (d : Diagnostic) :
    p.Grows (p.raise d) :=
  ⟨Registry.Within.refl _, List.prefix_append _ _⟩

end Pass

namespace PassM

variable {α : Type}

/- A diagnosing action gets through without a limit. -/
theorem Diagnosing.proceeds
    {a : PassM α}
    (ha : Diagnosing a)
    {p : Pass}
    (hp : p.Writing) :
    ∃ x q, a.runOn p = (.ok x, q) ∧ q.Writing ∧ p.Grows q := by
  induction ha generalizing p with
  | pure x => exact ⟨x, p, rfl, hp, Pass.Grows.refl p⟩
  | step hAnswer hSilent =>
      exact
        ⟨_, _, rfl, hp.silent hSilent,
          Pass.grows_silent hSilent p⟩
  | report d =>
      exact
        ⟨(), p.raise d, hp.report_eq d, hp.raise d,
          p.grows_raise d⟩
  | bind ha hf ihFirst ihSecond =>
      rcases ihFirst hp with ⟨x, q, hRun, hq, hGrows⟩
      rcases ihSecond x hq with
        ⟨y, r, hNext, hr, hMore⟩
      refine ⟨y, r, ?_, hr, hGrows.trans hMore⟩
      rw [runOn_bind, hRun]
      exact hNext

end PassM

end ScopeAnalysis

------------------------------------------------------------
-- Whole Analyses
------------------------------------------------------------

namespace ScopeAnalysis

namespace Pass

/- Write the report whole. -/
def finish (p : Pass) : Pass :=
  p.withReporter
    ⟨{ p.reporter.sink with
        kept :=
          p.reporter.sink.kept ++
            (Report.text p.source p.registry).toUTF8 },
      p.diagnostics⟩

@[simp] theorem diagnostics_finish
    (p : Pass) :
    p.finish.diagnostics = p.diagnostics :=
  rfl

/- A finished sink holds all lines, then the report. -/
theorem Writing.kept_finish
    {p : Pass}
    (hp : p.Writing) :
    p.finish.reporter.sink.kept =
      (Reporter.linesText p.diagnostics ++
        Report.text p.source p.registry).toUTF8 := by
  simp [finish, withReporter, hp.kept]

/- The bytes of a finished sink are those of its text. -/
theorem Writing.output_finish
    {p : Pass}
    (hp : p.Writing) :
    p.finish.output =
      Reporter.linesText p.diagnostics ++
        Report.text p.source p.registry :=
  Sink.text_of_kept hp.kept_finish

/- Writing the report changes a pass's reporter only. -/
theorem writeReport_of_reporter
    {p : Pass}
    {source : String}
    {outcome : Except SinkError Unit}
    {reporter : Reporter}
    (h :
      p.reporter.writeReport source p.registry =
        (outcome, reporter)) :
    p.writeReport source =
      (outcome, p.withReporter reporter) := by
  rw [writeReport, h]
  rfl

/- A writing pass gets its report written. -/
theorem Writing.writeReport_eq
    {p : Pass}
    (hp : p.Writing) :
    p.writeReport p.source = (.ok (), p.finish) :=
  writeReport_of_reporter
    (Reporter.writeReport_of_ok
      (Sink.write_of_unlimited hp.limit _) hp.flushes)

end Pass

namespace PassM

/- All of an analysis that comes before the report. -/
def gather (program : Program) : PassM Unit := do
  change fun p =>
    p.note
      (.analysisStarted
        program.source program.items.length)
  change fun p => p.enterProgram program
  walkAll listener program.items

theorem analyze_eq
    (program : Program) :
    analyze program = gather program >>= fun _ => exitProgram := by
  simp only [analyze, walkProgram, gather, listener,
    bind_assoc]

theorem diagnosing_gather
    (program : Program) :
    Diagnosing (gather program) := by
  apply Diagnosing.bind
    (diagnosing_change (Pass.silent_note _))
  intro _
  apply Diagnosing.bind
    (diagnosing_change (Pass.silent_enterProgram program))
  intro _
  exact diagnosing_walkAll program.items

end PassM

/- Without a limit an analysis ends with its report. -/
theorem runPass_unlimited
    (options : Options)
    (program : Program) :
    ∃ q,
      (PassM.gather program).runOn
          (.start options .unlimited) =
        (.ok (), q) ∧
      q.Writing ∧
      runPass options .unlimited program =
        (.ok (), q.finish) := by
  rcases (PassM.diagnosing_gather program).proceeds
      (Pass.writing_start options) with
    ⟨_, q, hGather, hq, _⟩
  refine ⟨q, hGather, hq, ?_⟩
  rw [runPass, PassM.analyze_eq, PassM.runOn_bind, hGather]
  exact hq.writeReport_eq

/- The text read from its bytes is the text it wrote. -/
theorem analyzeWith_of_runPass
    {options : Options}
    {program : Program}
    {q : Pass}
    (hq : q.Writing)
    (h :
      runPass options .unlimited program =
        (.ok (), q.finish)) :
    analyzeWith options program = .ok q.finish.result := by
  have hOutput :
      q.finish.reporter.sink.decoded = q.finish.output := by
    rw [Sink.decoded_of_kept hq.kept_finish,
      hq.output_finish]
  rw [analyzeWith, h]
  dsimp only
  rw [hOutput]
  rfl

end ScopeAnalysis
