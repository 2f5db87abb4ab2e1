import ScopeAnalysis.Position

/-
  Diagnostics.

  Key definitions include:
    * `DiagnosticCategory`
    * `DiagnosticCode`
    * `DiagnosticCode.label`
    * `DiagnosticCode.category`
    * `Diagnostic`
    * `Diagnostic.code`
    * `Diagnostic.position`
    * `Diagnostic.message`
    * `countCode`

  A diagnostic carries what the analysis knew when it raised
  it, which is more than its message shows.  Some codes have
  a number and others share the plain label `Error`; the
  messages are read by other tools and are fixed.
-/

------------------------------------------------------------
-- Codes And Categories
------------------------------------------------------------

namespace ScopeAnalysis

/- What kind of mistake a diagnostic is about. -/
inductive DiagnosticCategory where
| duplicateDefinition
| arityMismatch
| typeMismatch
| indexError
deriving DecidableEq

/- Which rule of the analysis raised a diagnostic. -/
inductive DiagnosticCode where
| classAlreadyDefined
| methodAlreadyDefined
| fieldAlreadyDefined
| returnTypeMismatch
| parameterCountMismatch
| wrongNumberOfArguments
| argumentTypeMismatch
| arrayIndexMustBeInteger
| arrayIndexOutOfRange
deriving DecidableEq

namespace DiagnosticCategory

/- The name of a category. -/
def name : DiagnosticCategory → String
| .duplicateDefinition => "DuplicateDefinition"
| .arityMismatch => "ArityMismatch"
| .typeMismatch => "TypeMismatch"
| .indexError => "IndexError"

end DiagnosticCategory

namespace DiagnosticCode

/- Every code once. -/
def all : List DiagnosticCode :=
  [ .classAlreadyDefined,
    .methodAlreadyDefined,
    .fieldAlreadyDefined,
    .returnTypeMismatch,
    .parameterCountMismatch,
    .wrongNumberOfArguments,
    .argumentTypeMismatch,
    .arrayIndexMustBeInteger,
    .arrayIndexOutOfRange ]

/- The name of a code. -/
def name : DiagnosticCode → String
| .classAlreadyDefined => "ClassAlreadyDefined"
| .methodAlreadyDefined => "MethodAlreadyDefined"
| .fieldAlreadyDefined => "FieldAlreadyDefined"
| .returnTypeMismatch => "ReturnTypeMismatch"
| .parameterCountMismatch => "ParameterCountMismatch"
| .wrongNumberOfArguments => "WrongNumberOfArguments"
| .argumentTypeMismatch => "ArgumentTypeMismatch"
| .arrayIndexMustBeInteger => "ArrayIndexMustBeInteger"
| .arrayIndexOutOfRange => "ArrayIndexOutOfRange"

/-
  The numbered label of a code, if it has one.  Classes and
  methods share a number.
-/
def numbered? : DiagnosticCode → Option String
| .classAlreadyDefined => some "Error102"
| .methodAlreadyDefined => some "Error102"
| .fieldAlreadyDefined => some "Error104"
| .returnTypeMismatch => some "Error210"
| .parameterCountMismatch => none
| .wrongNumberOfArguments => none
| .argumentTypeMismatch => none
| .arrayIndexMustBeInteger => none
| .arrayIndexOutOfRange => none

/- The label that opens the messages of a code. -/
def label (c : DiagnosticCode) : String :=
  c.numbered?.getD "Error"

/- The category that a code belongs to. -/
def category : DiagnosticCode → DiagnosticCategory
| .classAlreadyDefined => .duplicateDefinition
| .methodAlreadyDefined => .duplicateDefinition
| .fieldAlreadyDefined => .duplicateDefinition
| .returnTypeMismatch => .typeMismatch
| .parameterCountMismatch => .arityMismatch
| .wrongNumberOfArguments => .arityMismatch
| .argumentTypeMismatch => .typeMismatch
| .arrayIndexMustBeInteger => .indexError
| .arrayIndexOutOfRange => .indexError

end DiagnosticCode

end ScopeAnalysis

------------------------------------------------------------
-- Diagnostics
------------------------------------------------------------

namespace ScopeAnalysis

/-
  A mistake found in a program.  Arguments are numbered from
  one.
-/
inductive Diagnostic where
| classAlreadyDefined
    (name : String)
    (position : Position)
| methodAlreadyDefined
    (name : String)
    (position : Position)
| fieldAlreadyDefined
    (name : String)
    (position : Position)
| returnTypeMismatch
    (method expected found : String)
    (position : Position)
| parameterCountMismatch
    (method : String)
    (declared captured : Nat)
    (position : Position)
| wrongNumberOfArguments
    (method : String)
    (expected found : Nat)
    (position : Position)
| argumentTypeMismatch
    (method : String)
    (argument : Nat)
    (expected found : String)
    (position : Position)
| arrayIndexMustBeInteger
    (index : String)
    (position : Position)
| arrayIndexOutOfRange
    (array index : String)
    (length : Nat)
    (position : Position)
deriving DecidableEq

namespace Diagnostic

/- The code of the rule that a diagnostic comes from. -/
def code : Diagnostic → DiagnosticCode
| .classAlreadyDefined .. => .classAlreadyDefined
| .methodAlreadyDefined .. => .methodAlreadyDefined
| .fieldAlreadyDefined .. => .fieldAlreadyDefined
| .returnTypeMismatch .. => .returnTypeMismatch
| .parameterCountMismatch .. => .parameterCountMismatch
| .wrongNumberOfArguments .. => .wrongNumberOfArguments
| .argumentTypeMismatch .. => .argumentTypeMismatch
| .arrayIndexMustBeInteger .. => .arrayIndexMustBeInteger
| .arrayIndexOutOfRange .. => .arrayIndexOutOfRange

/- The place that a diagnostic points at. -/
def position : Diagnostic → Position
| .classAlreadyDefined _ p => p
| .methodAlreadyDefined _ p => p
| .fieldAlreadyDefined _ p => p
| .returnTypeMismatch _ _ _ p => p
| .parameterCountMismatch _ _ _ p => p
| .wrongNumberOfArguments _ _ _ p => p
| .argumentTypeMismatch _ _ _ _ p => p
| .arrayIndexMustBeInteger _ p => p
| .arrayIndexOutOfRange _ _ _ p => p

/- The category of a diagnostic's code. -/
def category (d : Diagnostic) : DiagnosticCategory :=
  d.code.category

/-
  What a diagnostic says behind its label.  A return type
  mismatch names the type that was declared, not the one
  that was expected.
-/
def detail : Diagnostic → String
| .classAlreadyDefined name p =>
    "in line [" ++ p.text ++ "], class [" ++ name ++
      "] has been defined already."
| .methodAlreadyDefined name p =>
    "in line [" ++ p.text ++ "], method [" ++ name ++
      "] has been defined already."
| .fieldAlreadyDefined name p =>
    "in line [" ++ p.text ++ "], field [" ++ name ++
      "] has been defined already."
| .returnTypeMismatch _ _ found p =>
    "in line [" ++ p.text ++
      "], ReturnType of this method must be [" ++
      found ++ "]"
| .parameterCountMismatch _ _ _ p =>
    "Line " ++ p.text ++
      ", Number of parameters in method call does not" ++
      " match with formal parameter count in method" ++
      " definition."
| .wrongNumberOfArguments method _ _ p =>
    "in line [" ++ p.text ++
      "], Incorrect number of arguments for method [" ++
      method ++ "]"
| .argumentTypeMismatch method argument _ _ p =>
    "in line [" ++ p.text ++
      "], Type mismatch for argument " ++
      toString argument ++ " of method [" ++ method ++ "]"
| .arrayIndexMustBeInteger index p =>
    "in line [" ++ p.text ++ "], array index [" ++ index ++
      "] must be an integer"
| .arrayIndexOutOfRange _ index _ p =>
    "in line [" ++ p.text ++ "], array index [" ++ index ++
      "] is out of range"

/- The message of a diagnostic, without a line end. -/
def message (d : Diagnostic) : String :=
  d.code.label ++ ": " ++ d.detail

end Diagnostic

end ScopeAnalysis

------------------------------------------------------------
-- Counting
------------------------------------------------------------

namespace ScopeAnalysis

/- How many diagnostics carry the given code. -/
def countCode
    (code : DiagnosticCode)
    (ds : List Diagnostic) : Nat :=
  ds.countP fun d => d.code = code

end ScopeAnalysis
