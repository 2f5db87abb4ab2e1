/-
  Declarations of classes, fields and methods.

  Key definitions include:
    * `Parameter`
    * `methodSignature`
    * `ClassDecl`
    * `FieldDecl`
    * `MethodDecl`
    * `MethodDecl.Part`
    * `MethodDecl.ofParts`
    * `MethodDecl.parameters`
    * `MethodDecl.formals`
    * `MethodDecl.captured`

  A method declaration holds three lists that need not
  agree: the parameter names that were labelled as such, the
  parameter types, and all identifiers that were captured,
  the method's own name first.
-/

------------------------------------------------------------
-- Parameters And Signatures
------------------------------------------------------------

namespace ScopeAnalysis

/- A formal parameter; the first one has index one. -/
structure Parameter where
  index : Nat
  name : String
  type : String
deriving DecidableEq

/- The written form of a parameter in a report. -/
def Parameter.text (p : Parameter) : String :=
  "\x7bindex=" ++ toString p.index ++
    ", name='" ++ p.name ++
    "', type='" ++ p.type ++ "'\x7d"

/-
  The signature of a method is its name and the types of its
  parameters in order, such as `sum(int,double)`.  Neither
  the parameter names nor the return type matter.
-/
def methodSignature
    (name : String)
    (parameters : List Parameter) : String :=
  name ++ "(" ++
    String.intercalate "," (parameters.map Parameter.type) ++
    ")"

end ScopeAnalysis

------------------------------------------------------------
-- Classes And Fields
------------------------------------------------------------

namespace ScopeAnalysis

/- A class, with its parent and access modifier if given. -/
structure ClassDecl where
  name : String
  parent : Option String
  access : Option String
deriving DecidableEq

/- A field, with its access modifier if given. -/
structure FieldDecl where
  name : String
  type : String
  access : Option String
deriving DecidableEq

end ScopeAnalysis

------------------------------------------------------------
-- Methods
------------------------------------------------------------

namespace ScopeAnalysis

/- A method with its captured names and types. -/
structure MethodDecl where
  name : String
  returnType : String
  access : Option String
  paramNames : List String
  paramTypes : List String
  identifiers : List String
deriving DecidableEq

namespace MethodDecl

/- A method without parameters captures its own name only. -/
def bare
    (name returnType : String)
    (access : Option String) : MethodDecl where
  name := name
  returnType := returnType
  access := access
  paramNames := []
  paramTypes := []
  identifiers := [name]

/- Add a parameter: a labelled name with its type. -/
def withParam
    (name type : String)
    (m : MethodDecl) : MethodDecl :=
  { m with
    paramNames := m.paramNames ++ [name]
    paramTypes := m.paramTypes ++ [type]
    identifiers := m.identifiers ++ [name] }

/- Add an identifier that no parameter label claims. -/
def withIdentifier
    (identifier : String)
    (m : MethodDecl) : MethodDecl :=
  { m with
    identifiers := m.identifiers ++ [identifier] }

/- One part of a method header behind its name. -/
inductive Part where
| param (name type : String)
| identifier (name : String)
deriving DecidableEq

/- Add one part to a header. -/
def add
    (m : MethodDecl) : Part → MethodDecl
| .param name type => m.withParam name type
| .identifier name => m.withIdentifier name

/- Build a header from its parts in order. -/
def ofParts
    (name returnType : String)
    (access : Option String)
    (parts : List Part) : MethodDecl :=
  parts.foldl add (bare name returnType access)

/- Some parameter name was labelled. -/
def hasParams (m : MethodDecl) : Bool :=
  !m.paramNames.isEmpty

/-
  Captured identifiers behind the method's name, paired with
  the types and numbered from one.  The shorter of the two
  lists ends the pairing.
-/
def parameters (m : MethodDecl) : List Parameter :=
  (((m.identifiers.drop 1).zip m.paramTypes).zipIdx 1).map
    fun entry => ⟨entry.2, entry.1.1, entry.1.2⟩

/-
  The parameters that count: those of a header with at least
  one labelled name, and none otherwise.
-/
def formals (m : MethodDecl) : List Parameter :=
  if m.hasParams then m.parameters else []

/- How many identifiers follow the method's own name. -/
def captured (m : MethodDecl) : Nat :=
  m.identifiers.length - 1

/- The signature under which a method is declared. -/
def signature (m : MethodDecl) : String :=
  methodSignature m.name m.formals

end MethodDecl

end ScopeAnalysis
