/- Settings of an analysis. -/

namespace ScopeAnalysis

/- What the declared return types of methods must be. -/
inductive ReturnTypeRule where
| expect (type : String)
| disabled
deriving DecidableEq

namespace ReturnTypeRule

def standardType : String :=
  "MethodReturnType"

/- The type that should have been declared, if another was. -/
def violation?
    (declared : String) : ReturnTypeRule → Option String
| .expect type =>
    if type = declared then none else some type
| .disabled => none

end ReturnTypeRule

/-
  The return type rule, and what stands in front of a callee
  in the key under which its symbol is looked up.
-/
structure Options where
  returnTypeRule : ReturnTypeRule
  targetLead : String
deriving DecidableEq

namespace Options

def standardLead : String :=
  "function_"

/- The settings of an analysis that names none. -/
def standard : Options where
  returnTypeRule := .expect ReturnTypeRule.standardType
  targetLead := standardLead

/- The key under which a callee's symbol is looked up. -/
def callTargetKey
    (o : Options)
    (callee : String) : String :=
  o.targetLead ++ callee

end Options

end ScopeAnalysis
