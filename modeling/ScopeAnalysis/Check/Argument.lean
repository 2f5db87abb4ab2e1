import ScopeAnalysis.Text.Pieces

/-
  Types of argument texts.

  Key definitions include:
    * `ValueType`
    * `ValueType.infer`
    * `ValueType.ConformsTo`
    * `ArgumentCheck`
    * `checkArguments`

  An argument is typed by its text alone.  A formal type
  takes every argument whose type name occurs in it, so that
  `int[]` takes an `int`.
-/

------------------------------------------------------------
-- Value Types
------------------------------------------------------------

namespace ScopeAnalysis

/- The types that an argument text can have. -/
inductive ValueType where
| string
| double
| bool
| int
deriving DecidableEq

namespace ValueType

/- A type's name, as declarations write it. -/
def name : ValueType → String
| .string => "string"
| .double => "double"
| .bool => "bool"
| .int => "int"

/-
  The type of an argument text.  A double quote outweighs a
  point, a point outweighs a truth value, and whatever has
  none of the three is an integer.
-/
def infer (text : String) : ValueType :=
  if text.toList.contains '"' then
    .string
  else if text.toList.contains '.' then
    .double
  else if
      Text.occursIn "True" text ||
        Text.occursIn "False" text then
    .bool
  else
    .int

/- A formal type takes the types whose names it contains. -/
def ConformsTo
    (formal : String)
    (t : ValueType) : Prop :=
  Text.occursIn t.name formal

instance
    (formal : String)
    (t : ValueType) :
    Decidable (t.ConformsTo formal) := by
  unfold ConformsTo
  infer_instance

end ValueType

end ScopeAnalysis

------------------------------------------------------------
-- Argument Lists
------------------------------------------------------------

namespace ScopeAnalysis

/-
  How a list of arguments compares with the formal types.
  The index of a mismatch counts from zero.
-/
inductive ArgumentCheck where
| conforms
| countMismatch (expected found : Nat)
| typeMismatch
    (index : Nat)
    (expected : String)
    (found : ValueType)
deriving DecidableEq

/-
  The first argument that its formal type does not take,
  where `index` is the number of the first pair.
-/
def firstMismatch
    (index : Nat) :
    List (String × String) → ArgumentCheck
| [] => .conforms
| (formal, argument) :: rest =>
    if (ValueType.infer argument).ConformsTo formal then
      firstMismatch (index + 1) rest
    else
      .typeMismatch index formal (ValueType.infer argument)

/-
  Compare arguments with formal types.  Types are looked at
  only when the counts agree.
-/
def checkArguments
    (formals arguments : List String) : ArgumentCheck :=
  if formals.length = arguments.length then
    firstMismatch 0 (formals.zip arguments)
  else
    .countMismatch formals.length arguments.length

end ScopeAnalysis
