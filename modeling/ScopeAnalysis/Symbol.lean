import ScopeAnalysis.Syntax.Declaration

/-
  Symbols: what is known about a declared name.

  Key definitions include:
    * `SymbolKind`
    * `Symbol`
    * `Symbol.ofClass`
    * `Symbol.ofField`
    * `Symbol.ofMethod`
    * `Symbol.ofVariable`
    * `Symbol.ofBlock`
    * `Symbol.text`
    * `SymbolKey.classKey`
    * `SymbolKey.fieldKey`
    * `SymbolKey.methodKey`
    * `SymbolKey.variableKey`

  A symbol is stored under a key that says what it is, so
  that a field and a variable of one name do not collide.
-/

------------------------------------------------------------
-- Keys
------------------------------------------------------------

namespace ScopeAnalysis

namespace SymbolKey

/- The key of a class. -/
def classKey (name : String) : String :=
  "class_" ++ name

/- The key of a field. -/
def fieldKey (name : String) : String :=
  "field_" ++ name

/- The key of a method, which its signature decides. -/
def methodKey (signature : String) : String :=
  "method_" ++ signature

/- The key of a variable. -/
def variableKey (name : String) : String :=
  "var_" ++ name

/- The key of the marker that every if-scope holds. -/
def ifMarker : String :=
  "if_condition"

/- The key of the marker that every while-scope holds. -/
def loopMarker : String :=
  "while_loop"

end SymbolKey

end ScopeAnalysis

------------------------------------------------------------
-- Kinds
------------------------------------------------------------

namespace ScopeAnalysis

/- What a symbol stands for. -/
inductive SymbolKind where
| classType
| field
| method
| var
| ifMarker
| elseMarker
| loopMarker
deriving DecidableEq

namespace SymbolKind

/- Every kind once. -/
def all : List SymbolKind :=
  [ .classType,
    .field,
    .method,
    .var,
    .ifMarker,
    .elseMarker,
    .loopMarker ]

/- The word for a kind in a report. -/
def text : SymbolKind → String
| .classType => "class"
| .field => "field"
| .method => "method"
| .var => "variable"
| .ifMarker => "if"
| .elseMarker => "else"
| .loopMarker => "while"

end SymbolKind

end ScopeAnalysis

------------------------------------------------------------
-- Symbols
------------------------------------------------------------

namespace ScopeAnalysis

/- The access modifier of a declaration that has none. -/
def defaultAccess : String :=
  "default"

/-
  A declared name.  The type of a method is its return type.
  A symbol inherits the key of its parent class, and the
  first line is that of a variable or of a marked block.
-/
structure Symbol where
  kind : SymbolKind
  name : String
  type : Option String
  access : Option String
  inherits : Option String
  parameters : List Parameter
  firstLine : Option Nat
  arrayLength : Option Nat
deriving DecidableEq

namespace Symbol

/- A symbol of which only kind and name are known. -/
def bare
    (kind : SymbolKind)
    (name : String) : Symbol where
  kind := kind
  name := name
  type := none
  access := none
  inherits := none
  parameters := []
  firstLine := none
  arrayLength := none

/- The symbol of a class. -/
def ofClass
    (name : String)
    (access parent : Option String) : Symbol :=
  { bare .classType name with
    access := some (access.getD defaultAccess)
    inherits := parent.map SymbolKey.classKey }

/- The symbol of a field. -/
def ofField
    (name type : String)
    (access : Option String) : Symbol :=
  { bare .field name with
    type := some type
    access := some (access.getD defaultAccess) }

/- The symbol of a method. -/
def ofMethod
    (name returnType : String)
    (access : Option String)
    (parameters : List Parameter) : Symbol :=
  { bare .method name with
    type := some returnType
    access := some (access.getD defaultAccess)
    parameters := parameters }

/- The symbol of a variable that first appears on a line. -/
def ofVariable
    (name : String)
    (line : Nat) : Symbol :=
  { bare .var name with
    firstLine := some line }

/- The marker of a block that starts on a line. -/
def ofBlock
    (kind : SymbolKind)
    (name : String)
    (line : Nat) : Symbol :=
  { bare kind name with
    firstLine := some line }

/- Whether a symbol is a variable. -/
def isVariable (s : Symbol) : Bool :=
  s.kind = .var

/- The types of a symbol's parameters in order. -/
def parameterTypes (s : Symbol) : List String :=
  s.parameters.map Parameter.type

end Symbol

end ScopeAnalysis

------------------------------------------------------------
-- Written Form
------------------------------------------------------------

namespace ScopeAnalysis

namespace Symbol

/- A quoted part of a symbol's text, if there is one. -/
def quotedPart
    (label : String) : Option String → String
| none => ""
| some value => ", " ++ label ++ "='" ++ value ++ "'"

/- The parameter part; an empty list is not written. -/
def parametersPart : List Parameter → String
| [] => ""
| ps =>
    ", parameters=[" ++
      String.intercalate ", " (ps.map Parameter.text) ++
      "]"

/- The array length part, if there is one. -/
def lengthPart : Option Nat → String
| none => ""
| some n => ", length=" ++ toString n

/- The written form of a symbol; the line is left out. -/
def text (s : Symbol) : String :=
  "\x7bkind='" ++ s.kind.text ++
    "', name='" ++ s.name ++ "'" ++
    quotedPart "type" s.type ++
    quotedPart "accessModifier" s.access ++
    quotedPart "inherits" s.inherits ++
    parametersPart s.parameters ++
    lengthPart s.arrayLength ++ "\x7d"

end Symbol

end ScopeAnalysis
