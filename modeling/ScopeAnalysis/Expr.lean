import ScopeAnalysis.IntLiteral
import ScopeAnalysis.Position
import ScopeAnalysis.Text.Blank
import ScopeAnalysis.Text.Pieces

/-
  Expressions, kept as text.

  Key definitions include:
    * `Expr`
    * `Expr.callTarget?`
    * `Expr.callArguments`
    * `Expr.integerLiteral?`
    * `Expr.integer?`

  The analysis asks two questions about an expression: does
  it call something, and is it an integer literal.  Both are
  answered from the text alone, so no tree is kept.
-/

------------------------------------------------------------
-- Expressions
------------------------------------------------------------

namespace ScopeAnalysis

/- The text of an expression and the place it starts at. -/
structure Expr where
  text : String
  position : Position
deriving DecidableEq, Inhabited

end ScopeAnalysis

------------------------------------------------------------
-- Calls
------------------------------------------------------------

namespace ScopeAnalysis

namespace Expr

/- A text with an opening parenthesis is a call. -/
def isCall (e : Expr) : Bool :=
  e.text.toList.contains '('

/- The name in front of the first opening parenthesis. -/
def callTarget? (e : Expr) : Option String :=
  (Text.cut? '(' e.text.toList).map fun parts =>
    String.ofList (Text.trim parts.1)

/-
  The text between the first opening and the first closing
  parenthesis.  There is none when a parenthesis is missing
  or when the closing one comes first.
-/
def callInterior? (cs : List Char) : Option (List Char) :=
  match Text.cut? '(' cs with
  | none => none
  | some (before, behind) =>
      if ')' ∈ before then
        none
      else
        (Text.cut? ')' behind).map Prod.fst

/-
  The arguments of a call, cut at commas and trimmed.  A
  blank interior has no arguments, but an argument between
  two commas may well be empty.
-/
def callArguments (e : Expr) : List String :=
  match callInterior? e.text.toList with
  | none => []
  | some interior =>
      if Text.trim interior = [] then
        []
      else
        ((Text.trim interior).splitOn ',').map
          fun piece => String.ofList (Text.trim piece)

end Expr

end ScopeAnalysis

------------------------------------------------------------
-- Integer Literals
------------------------------------------------------------

namespace ScopeAnalysis

namespace Expr

/- The integer literal that a text is, blanks aside. -/
def integerLiteral? (e : Expr) : Option IntLiteral :=
  IntLiteral.read? (Text.trim e.text.toList)

/- A literal of any magnitude is an integer literal. -/
def isIntegerLiteral (e : Expr) : Bool :=
  e.integerLiteral?.isSome

/- The value of a literal, if a 64-bit word can hold it. -/
def integer? (e : Expr) : Option Int :=
  (e.integerLiteral?.map IntLiteral.value).filter
    fun n => IntLiteral.Representable n

end Expr

end ScopeAnalysis
