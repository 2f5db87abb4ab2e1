import ScopeAnalysis.Diagnostic
import ScopeAnalysis.Options
import ScopeAnalysis.Syntax.Declaration

/-
  Checking the header of a method.

  Key definitions include:
    * `returnTypeViolations`
    * `parameterCountViolations`
    * `headerViolations`
-/

------------------------------------------------------------
-- Method Headers
------------------------------------------------------------

namespace ScopeAnalysis

/- The declared return type is not the expected one. -/
def returnTypeViolations
    (rule : ReturnTypeRule)
    (decl : MethodDecl)
    (start : Position) : List Diagnostic :=
  match rule.violation? decl.returnType with
  | none => []
  | some expected =>
      [ .returnTypeMismatch
          decl.name expected decl.returnType start ]

/-
  The header labels more or fewer parameter names than it
  captures identifiers.
-/
def parameterCountViolations
    (decl : MethodDecl)
    (start : Position) : List Diagnostic :=
  if decl.paramNames.length = decl.captured then
    []
  else
    [ .parameterCountMismatch
        decl.name decl.paramNames.length decl.captured
        start ]

/- All that is wrong with a header, return type first. -/
def headerViolations
    (options : Options)
    (decl : MethodDecl)
    (start : Position) : List Diagnostic :=
  returnTypeViolations options.returnTypeRule decl start ++
    parameterCountViolations decl start

end ScopeAnalysis
