import ScopeAnalysis.Check.Argument
import ScopeAnalysis.Diagnostic
import ScopeAnalysis.Expr
import ScopeAnalysis.Options
import ScopeAnalysis.Registry

/-
  Checking a call against its target.

  Key definitions include:
    * `CallVerdict`
    * `judgeArguments`
    * `judgeCall`

  The target of a call is looked up in the innermost open
  scope only.  A call to something unknown there is no
  mistake.
-/

------------------------------------------------------------
-- Calls
------------------------------------------------------------

namespace ScopeAnalysis

/- What is to be said about an expression as a call. -/
inductive CallVerdict where
| notCall
| unknownTarget (key : String)
| conforms
| mismatch (diagnostic : Diagnostic)
deriving DecidableEq

/-
  Compare the arguments of a call with its target.  A wrong
  count is reported where the statement starts and a wrong
  type where the expression starts.
-/
def judgeArguments
    (callee : String)
    (target : Symbol)
    (expr : Expr)
    (start : Position) : CallVerdict :=
  match
      checkArguments
        target.parameterTypes expr.callArguments with
  | .conforms => .conforms
  | .countMismatch expected found =>
      .mismatch
        (.wrongNumberOfArguments
          callee expected found start)
  | .typeMismatch index expected found =>
      .mismatch
        (.argumentTypeMismatch
          callee (index + 1) expected found.name
          expr.position)

/- Judge an expression in a statement with a given start. -/
def judgeCall
    (options : Options)
    (registry : Registry)
    (expr : Expr)
    (start : Position) : CallVerdict :=
  match expr.callTarget? with
  | none => .notCall
  | some callee =>
      let key := options.callTargetKey callee
      match registry.lookup registry.current key with
      | none => .unknownTarget key
      | some target =>
          judgeArguments callee target expr start

end ScopeAnalysis
