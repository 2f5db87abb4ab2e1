import ScopeAnalysis.Text.Pieces

/-
  Names of scopes.

  Key definitions include:
    * `ScopeId`
    * `ScopeKind`
    * `ScopeId.kind`

  A scope is known by its name alone.  Scopes of
  declarations are named after what they declare, and scopes
  of blocks after the lines they cover.  Any other text can
  name a scope too.
-/

------------------------------------------------------------
-- Scope Names
------------------------------------------------------------

namespace ScopeAnalysis

/- The name of a scope. -/
structure ScopeId where
  text : String
deriving DecidableEq, Inhabited

namespace ScopeId

/- The outermost scope. -/
def global : ScopeId :=
  ⟨"global"⟩

/- The scope of a class body. -/
def ofClass (name : String) : ScopeId :=
  ⟨"class_" ++ name⟩

/- The scope of a method body, known by its signature. -/
def ofMethod (signature : String) : ScopeId :=
  ⟨"method_" ++ signature⟩

/- The name of a block that covers some lines. -/
def ofBlock
    (word : String)
    (startLine endLine : Nat) : ScopeId :=
  ⟨word ++ "_" ++ toString startLine ++
    "_" ++ toString endLine⟩

/- The scope of a conditional. -/
def ofIf
    (startLine endLine : Nat) : ScopeId :=
  ofBlock "if" startLine endLine

/- The scope of a conditional's else-branch. -/
def ofElse
    (startLine endLine : Nat) : ScopeId :=
  ofBlock "else" startLine endLine

/- The scope of a loop. -/
def ofWhile
    (startLine endLine : Nat) : ScopeId :=
  ofBlock "while" startLine endLine

/- Names are ordered as texts, by code point. -/
instance : Ord ScopeId where
  compare a b := compareOfLessAndEq a.text b.text

/- Whether a name is that of the outermost scope. -/
def isGlobal (id : ScopeId) : Bool :=
  id = global

end ScopeId

end ScopeAnalysis

------------------------------------------------------------
-- Scope Kinds
------------------------------------------------------------

namespace ScopeAnalysis

/- What kind of construct a scope's name points to. -/
inductive ScopeKind where
| global
| classBody
| methodBody
| ifBlock
| elseBlock
| whileBlock
| other
deriving DecidableEq

namespace ScopeKind

/- Conditionals and loops run under a condition. -/
def isGuarded : ScopeKind → Bool
| .ifBlock => true
| .whileBlock => true
| _ => false

end ScopeKind

namespace ScopeId

/-
  The kind of a scope, read off how its name begins.  Words
  of blocks need no underscore behind them.
-/
def kind (id : ScopeId) : ScopeKind :=
  if id.isGlobal then
    .global
  else if Text.beginsWith "if" id.text then
    .ifBlock
  else if Text.beginsWith "while" id.text then
    .whileBlock
  else if Text.beginsWith "else" id.text then
    .elseBlock
  else if Text.beginsWith "class_" id.text then
    .classBody
  else if Text.beginsWith "method_" id.text then
    .methodBody
  else
    .other

end ScopeId

end ScopeAnalysis
