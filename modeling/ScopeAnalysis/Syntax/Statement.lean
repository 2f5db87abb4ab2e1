import ScopeAnalysis.Expr

/-
  Statements that the analysis looks into.

  Key definitions include:
    * `VarDef`
    * `Assignment`
    * `Conditional`
-/

------------------------------------------------------------
-- Statements
------------------------------------------------------------

namespace ScopeAnalysis

/-
  A definition of any number of names.  An array length
  makes arrays of all of them.
-/
structure VarDef where
  names : List String
  initializers : List Expr
  arrayLength : Option Nat
deriving DecidableEq

/- An assignment to a name, or to one of its elements. -/
structure Assignment where
  target : String
  index : Option Expr
  value : Expr
deriving DecidableEq

/- A conditional, with the line of its else-branch if any. -/
structure Conditional where
  elseLine : Option Nat
deriving DecidableEq

namespace Conditional

/- The conditional has an else-branch. -/
def hasElse (c : Conditional) : Bool :=
  c.elseLine.isSome

end Conditional

end ScopeAnalysis
