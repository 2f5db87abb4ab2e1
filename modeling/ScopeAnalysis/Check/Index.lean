import ScopeAnalysis.Diagnostic
import ScopeAnalysis.Registry
import ScopeAnalysis.Syntax.Statement

/-
  Checking the index of an assignment to an array element.

  Key definitions include:
    * `Expr.IndexesInto`
    * `IndexVerdict`
    * `judgeIndex`

  An index has to be an integer literal, whatever the target
  is.  Its range is checked when the nearest variable of the
  target's name has an array length.
-/

------------------------------------------------------------
-- Indexes
------------------------------------------------------------

namespace ScopeAnalysis

/-
  An index is one of `length` many when its value fits into
  a 64-bit word and lies from zero up to the length.
-/
def Expr.IndexesInto
    (length : Nat)
    (index : Expr) : Prop :=
  ∃ n ∈ index.integer?, 0 ≤ n ∧ n < length

instance
    (length : Nat)
    (index : Expr) :
    Decidable (index.IndexesInto length) := by
  unfold Expr.IndexesInto
  infer_instance

/- What is to be said about the index of an assignment. -/
inductive IndexVerdict where
| accepted
| unknownLength
| violation (diagnostic : Diagnostic)
deriving DecidableEq

/- Judge an index into a target of the given length. -/
def judgeRange
    (target : String)
    (length : Nat)
    (index : Expr)
    (start : Position) : IndexVerdict :=
  if index.IndexesInto length then
    .accepted
  else
    .violation
      (.arrayIndexOutOfRange
        target index.text length start)

/- Judge an assignment in a statement with a given start. -/
def judgeIndex
    (registry : Registry)
    (assignment : Assignment)
    (start : Position) : IndexVerdict :=
  match assignment.index with
  | none => .accepted
  | some index =>
      if index.isIntegerLiteral then
        let key := SymbolKey.variableKey assignment.target
        match
            (registry.resolve key).bind
              Symbol.arrayLength with
        | none => .unknownLength
        | some length =>
            judgeRange assignment.target length index start
      else
        .violation
          (.arrayIndexMustBeInteger index.text start)

end ScopeAnalysis
