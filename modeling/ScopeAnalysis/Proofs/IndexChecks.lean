import ScopeAnalysis.Pass.Move
import ScopeAnalysis.Proofs.Findings
import ScopeAnalysis.Proofs.LiteralValues

/-
  What the check of an assignment to an element raises.

  Key definitions include:
    * `Sink.NeverFails`
    * `Registry.Nearest`
    * `Expr.OutOfRange`
    * `ChecksIndex`

  Key theorems include:
    * `Expr.Denotes.indexesInto_iff`
    * `Registry.resolve_eq_some_iff`
    * `judgeIndex_of_length`
    * `checksIndex`

  The check is told from the integer that the index denotes
  and from the nearest variable of the target's name.  The
  index is read into a signed word of 64 bits.  A length can
  be beyond what such a word holds, and an index that is as
  large counts as out of range below the length, too.
-/

------------------------------------------------------------
-- Indexes
------------------------------------------------------------

namespace ScopeAnalysis

namespace Expr

/-
  An integer is out of range if it is negative, if it is not
  below the length, or if a signed word is too small for it.
-/
def OutOfRange
    (length : Nat)
    (value : Int) : Prop :=
  value < 0 ∨ length ≤ value ∨ 2 ^ 63 ≤ value

instance
    (length : Nat)
    (value : Int) :
    Decidable (OutOfRange length value) := by
  unfold OutOfRange
  infer_instance

/- Up to the size of a signed word the length decides. -/
theorem outOfRange_iff_of_le
    {length : Nat}
    {value : Int}
    (h : length ≤ 2 ^ 63) :
    OutOfRange length value ↔
      value < 0 ∨ length ≤ value := by
  unfold OutOfRange
  omega

/- An index is in range by the integer that it denotes. -/
theorem Denotes.indexesInto_iff
    {index : Expr}
    {value : Int}
    (h : index.Denotes value)
    (length : Nat) :
    index.IndexesInto length ↔
      ¬ OutOfRange length value := by
  rw [IndexesInto, h.integer?_eq]
  by_cases hFits : IntLiteral.Representable value
  · rw [if_pos hFits]
    rw [IntLiteral.Representable] at hFits
    simp only [Option.mem_def, Option.some.injEq,
      exists_eq_left', OutOfRange]
    omega
  · rw [if_neg hFits]
    rw [IntLiteral.Representable] at hFits
    simp only [Option.mem_def, reduceCtorEq, false_and,
      exists_false, OutOfRange, false_iff, not_not]
    omega

end Expr

end ScopeAnalysis

------------------------------------------------------------
-- Nearest Symbols
------------------------------------------------------------

namespace ScopeAnalysis

namespace Registry

/-
  The innermost open scope that has a key has this symbol
  for it.
-/
def Nearest
    (r : Registry)
    (key : String)
    (symbol : Symbol) : Prop :=
  ∃ within scope around,
    r.openScopes = within ++ scope :: around ∧
      r.lookup scope key = some symbol ∧
      ∀ inner ∈ within, r.lookup inner key = none

/- What is resolved is the nearest symbol. -/
theorem resolve_eq_some_iff
    {r : Registry}
    {key : String}
    {symbol : Symbol} :
    r.resolve key = some symbol ↔ r.Nearest key symbol :=
  List.findSome?_eq_some_iff

/- A key has one nearest symbol at most. -/
theorem Nearest.unique
    {r : Registry}
    {key : String}
    {symbol other : Symbol}
    (h : r.Nearest key symbol)
    (hOther : r.Nearest key other) :
    symbol = other := by
  rw [← resolve_eq_some_iff] at h hOther
  exact Option.some.inj (h.symm.trans hOther)

end Registry

end ScopeAnalysis

------------------------------------------------------------
-- Verdicts
------------------------------------------------------------

namespace ScopeAnalysis

section Verdicts

open SymbolKey (variableKey)

variable {registry : Registry}
variable {target : String}
variable {index assigned : Expr}
variable {start : Position}
variable {value : Int}

/- An index that denotes no integer is always reported. -/
theorem judgeIndex_of_no_integer
    (h : ∀ value, ¬ index.Denotes value) :
    judgeIndex registry ⟨target, some index, assigned⟩
        start =
      .violation
        (.arrayIndexMustBeInteger index.text start) := by
  have hLiteral : ¬ index.isIntegerLiteral := by
    rw [Expr.isIntegerLiteral_iff]
    rintro ⟨value, hValue⟩
    exact h value hValue
  rw [judgeIndex]
  exact if_neg hLiteral

/- An integer index is judged by the nearest symbol. -/
theorem judgeIndex_of_denotes
    (h : index.Denotes value) :
    judgeIndex registry ⟨target, some index, assigned⟩
        start =
      match
          (registry.resolve (variableKey target)).bind
            Symbol.arrayLength with
      | none => .unknownLength
      | some length =>
          judgeRange target length index start := by
  rw [judgeIndex]
  exact if_pos (Expr.isIntegerLiteral_iff.mpr ⟨value, h⟩)

/- Without a length nothing is known about the range. -/
theorem judgeIndex_of_no_length
    (h : index.Denotes value)
    (hNone :
      ∀ symbol,
        registry.Nearest (variableKey target) symbol →
          symbol.arrayLength = none) :
    judgeIndex registry ⟨target, some index, assigned⟩
        start =
      .unknownLength := by
  rw [judgeIndex_of_denotes h]
  cases hResolve : registry.resolve (variableKey target) with
  | none => rfl
  | some symbol =>
      rw [Option.bind_some,
        hNone symbol (Registry.resolve_eq_some_iff.mp hResolve)]

/- With a length the range of the index decides. -/
theorem judgeIndex_of_length
    {symbol : Symbol}
    {length : Nat}
    (h : index.Denotes value)
    (hNearest :
      registry.Nearest (variableKey target) symbol)
    (hLength : symbol.arrayLength = some length) :
    judgeIndex registry ⟨target, some index, assigned⟩
        start =
      if Expr.OutOfRange length value then
        .violation
          (.arrayIndexOutOfRange
            target index.text length start)
      else
        .accepted := by
  rw [judgeIndex_of_denotes h,
    Registry.resolve_eq_some_iff.mpr hNearest,
    Option.bind_some, hLength]
  simp only [judgeRange, h.indexesInto_iff, ite_not]

end Verdicts

end ScopeAnalysis

------------------------------------------------------------
-- Checks
------------------------------------------------------------

namespace ScopeAnalysis

/- A sink that takes every text whole. -/
def Sink.NeverFails (s : Sink) : Prop :=
  ∀ text, (s.write text).1 = .ok ()

theorem Sink.neverFails_of_unlimited
    {s : Sink}
    (h : s.limit = none) :
    s.NeverFails := by
  intro text
  rw [write_of_unlimited h]

/- Over such a sink every diagnostic is raised. -/
theorem Pass.exists_report
    {p : Pass}
    (h : p.reporter.sink.NeverFails)
    (d : Diagnostic) :
    ∃ q,
      p.report d = (.ok (), q) ∧
        q.registry = p.registry ∧
        q.diagnostics = p.diagnostics ++ [d] := by
  have hWrite :
      p.reporter.sink.write (Reporter.lineOf d) =
        (.ok (),
          (p.reporter.sink.write (Reporter.lineOf d)).2) :=
    Prod.ext (h _) rfl
  exact
    ⟨_, report_of_emit (Reporter.emit_of_ok hWrite),
      rfl, rfl⟩

/- A check raises what its verdict says and nothing else. -/
theorem PassM.exists_checkAssignment
    {p : Pass}
    (h : p.reporter.sink.NeverFails)
    (assignment : Assignment)
    (span : Span) :
    ∃ q,
      (checkAssignment assignment span).runOn p =
          (.ok (), q) ∧
        q.registry = p.registry ∧
        q.diagnostics =
          p.diagnostics ++
            (judgeIndex p.registry assignment
              span.start).diagnostic?.toList := by
  rw [checkAssignment, runOn_bind, runOn_ask]
  cases judgeIndex p.registry assignment span.start with
  | accepted =>
      exact ⟨p, rfl, rfl, (List.append_nil _).symm⟩
  | unknownLength =>
      exact
        ⟨p.note (.lengthUnknown assignment.target), rfl, rfl,
          (List.append_nil _).symm⟩
  | violation d => exact p.exists_report h d

/-
  The state `q` that the check of an assignment to an element
  leads to from `p`.  The registry stays as it is, and what
  is raised depends on the integer that the index denotes and
  on the nearest variable of the target's name.
-/
structure ChecksIndex
    (target : String)
    (index : Expr)
    (start : Position)
    (p q : Pass) : Prop where
  registry : q.registry = p.registry
  no_integer :
    (∀ value, ¬ index.Denotes value) →
      q.diagnostics =
        p.diagnostics ++
          [.arrayIndexMustBeInteger index.text start]
  no_length :
    ∀ value,
      index.Denotes value →
        (∀ symbol,
          p.registry.Nearest ("var_" ++ target) symbol →
            symbol.arrayLength = none) →
          q.diagnostics = p.diagnostics
  of_length :
    ∀ value symbol length,
      index.Denotes value →
        p.registry.Nearest ("var_" ++ target) symbol →
          symbol.arrayLength = some length →
            q.diagnostics =
              p.diagnostics ++
                if Expr.OutOfRange length value then
                  [.arrayIndexOutOfRange
                    target index.text length start]
                else
                  []

/- Every check over a sink that never fails is like this. -/
theorem checksIndex
    (p : Pass)
    (target : String)
    (index assigned : Expr)
    (span : Span)
    (hSink : p.reporter.sink.NeverFails) :
    ∃ q,
      (PassM.checkAssignment
          ⟨target, some index, assigned⟩ span).runOn p =
        (.ok (), q) ∧
        ChecksIndex target index span.start p q := by
  rcases PassM.exists_checkAssignment hSink
      ⟨target, some index, assigned⟩ span with
    ⟨q, hRun, hRegistry, hRaised⟩
  refine ⟨q, hRun, hRegistry, ?_, ?_, ?_⟩
  · intro hNone
    rw [hRaised, judgeIndex_of_no_integer hNone]
    rfl
  · intro value hValue hNone
    rw [hRaised, judgeIndex_of_no_length hValue hNone]
    exact List.append_nil _
  · intro value symbol length hValue hNearest hLength
    rw [hRaised, judgeIndex_of_length hValue hNearest hLength]
    split <;> rfl

/- A pass that knows an array `x` of some length. -/
def Pass.withArray (length : Nat) : Pass :=
  (start .standard .unlimited).afterMoves
    [ (.unlimited,
        .defineVariables ⟨["x"], [], some length⟩
          (.token 1 0)) ]

theorem Pass.nearest_withArray (length : Nat) :
    ∃ symbol,
      (withArray length).registry.Nearest
          (SymbolKey.variableKey "x") symbol ∧
        symbol.arrayLength = some length :=
  ⟨_, ⟨[], .global, [], rfl, rfl, by simp⟩, rfl⟩

/- The sixth element of an array of two is out of range. -/
theorem checksIndex_sixth_of_two :
    (Pass.withArray 2).reporter.sink.NeverFails ∧
      ∃ q,
        (PassM.checkAssignment
            ⟨"x", some ⟨" +05", 2, 2⟩, ⟨"1", 2, 8⟩⟩
            (.token 2 0)).runOn (Pass.withArray 2) =
          (.ok (), q) ∧
          q.diagnostics =
            [.arrayIndexOutOfRange "x" " +05" 2
              ⟨2, 0⟩] := by
  have hSink : (Pass.withArray 2).reporter.sink.NeverFails :=
    Sink.neverFails_of_unlimited rfl
  have hFive : Expr.Denotes ⟨" +05", 2, 2⟩ 5 :=
    Expr.denotes_iff.mpr ⟨⟨false, ['0', '5']⟩, rfl, rfl⟩
  rcases Pass.nearest_withArray 2 with
    ⟨symbol, hNearest, hLength⟩
  rcases checksIndex (.withArray 2) "x" ⟨" +05", 2, 2⟩
      ⟨"1", 2, 8⟩ (.token 2 0) hSink with
    ⟨q, hRun, hChecks⟩
  refine ⟨hSink, q, hRun, ?_⟩
  exact hChecks.of_length 5 symbol 2 hFive hNearest hLength

/-
  Two to the 63rd is below some lengths, and it is reported
  all the same.
-/
theorem index_below_length_reported :
    ¬ ∀ (p : Pass) target index assigned span value symbol
        (length : Nat),
        p.reporter.sink.NeverFails →
          Expr.Denotes index value →
            p.registry.Nearest
                (SymbolKey.variableKey target) symbol →
              symbol.arrayLength = some length →
                length < 2 ^ 64 →
                  ((PassM.checkAssignment
                        ⟨target, some index, assigned⟩
                        span).runOn p).2.diagnostics =
                    p.diagnostics ++
                      if value < 0 ∨ length ≤ value then
                        [.arrayIndexOutOfRange target
                          index.text length span.start]
                      else
                        [] := by
  intro hClaim
  let index : Expr := ⟨"9223372036854775808", 2, 2⟩
  let p := Pass.withArray (2 ^ 64 - 1)
  have hIndex : index.Denotes 9223372036854775808 :=
    Expr.denotes_iff.mpr
      ⟨⟨false, index.text.toList⟩, by decide +kernel,
        by decide +kernel⟩
  rcases Pass.nearest_withArray (2 ^ 64 - 1) with
    ⟨symbol, hNearest, hLength⟩
  have hSilent :=
    hClaim p "x" index ⟨"1", 2, 25⟩ (.token 2 0) _ _ _
      (Sink.neverFails_of_unlimited rfl) hIndex hNearest
      hLength (by decide)
  rw [if_neg (by decide)] at hSilent
  revert hSilent
  decide +kernel

end ScopeAnalysis
