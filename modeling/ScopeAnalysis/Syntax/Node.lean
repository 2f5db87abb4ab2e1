import ScopeAnalysis.Syntax.Declaration
import ScopeAnalysis.Syntax.Statement

/-
  Syntax trees.

  Key definitions include:
    * `NodeKind`
    * `Node`
    * `Node.count`
    * `Program`

  A conditional or a loop is closed when all of its bodies
  are blocks; only the closed forms have scopes of their own.
-/

------------------------------------------------------------
-- Nodes
------------------------------------------------------------

namespace ScopeAnalysis

/- The construct that a node stands for. -/
inductive NodeKind where
| classDecl (decl : ClassDecl)
| fieldDecl (decl : FieldDecl)
| methodDecl (decl : MethodDecl)
| varDef (definition : VarDef)
| assignment (assignment : Assignment)
| closedConditional (conditional : Conditional)
| closedLoop
| openConditional
| openLoop
| block
| expression (expr : Expr)
| other
deriving DecidableEq

/- A construct, where it stands, and what it contains. -/
structure Node where
  kind : NodeKind
  span : Span
  children : List Node

namespace Node

mutual

/- The number of nodes in a tree. -/
def count : Node → Nat
| ⟨_, _, children⟩ => 1 + countAll children

/- The number of nodes in a list of trees. -/
def countAll : List Node → Nat
| [] => 0
| node :: nodes => node.count + countAll nodes

end

end Node

end ScopeAnalysis

------------------------------------------------------------
-- Programs
------------------------------------------------------------

namespace ScopeAnalysis

/- The name of a source text and the trees read from it. -/
structure Program where
  source : String
  items : List Node

end ScopeAnalysis
