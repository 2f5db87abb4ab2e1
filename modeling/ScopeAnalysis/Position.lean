/-
  Places in a source text.  Lines count from one and columns
  from zero, but nothing here depends on it: every pair of
  numbers is a position.
-/

namespace ScopeAnalysis

structure Position where
  line : Nat
  column : Nat
deriving DecidableEq, Inhabited

namespace Position

/- Earlier lines come first, then earlier columns. -/
instance : Ord Position where
  compare a b :=
    (compare a.line b.line).then
      (compare a.column b.column)

/- The written form of a position, such as `4:12`. -/
def text (p : Position) : String :=
  toString p.line ++ ":" ++ toString p.column

end Position

/- The stretch of source text covered by one construct. -/
structure Span where
  start : Position
  finish : Position
deriving DecidableEq, Inhabited

namespace Span

/- The span of a construct that is a single token. -/
def token
    (line column : Nat) : Span :=
  ⟨⟨line, column⟩, ⟨line, column⟩⟩

/-
  The span of a construct that covers whole lines.  Only its
  first token has a column of its own.
-/
def lines
    (startLine column endLine : Nat) : Span :=
  ⟨⟨startLine, column⟩, ⟨endLine, 0⟩⟩

def startLine (s : Span) : Nat :=
  s.start.line

def endLine (s : Span) : Nat :=
  s.finish.line

end Span

end ScopeAnalysis
