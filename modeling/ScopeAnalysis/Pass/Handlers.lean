import ScopeAnalysis.Check.Call
import ScopeAnalysis.Check.Header
import ScopeAnalysis.Check.Index
import ScopeAnalysis.Pass.Action
import ScopeAnalysis.Syntax.Node

/-
  What a pass does with each construct.

  Key definitions include:
    * `PassM.enterClass`
    * `PassM.declareField`
    * `PassM.enterMethod`
    * `Pass.exitMethod`
    * `Pass.declareVariables`
    * `PassM.defineVariables`
    * `PassM.checkCall`
    * `PassM.checkAssignment`
    * `Pass.enterConditional`
    * `Pass.exitConditional`
    * `Pass.enterLoop`
    * `PassM.enterNode`
    * `Pass.exitNode`

  Handlers that cannot fail are functions on passes, and the
  others are actions.  A symbol is always declared before
  anything is reported about it, so it is stored even when
  the sink fails.  Leaving a construct never fails.
-/

------------------------------------------------------------
-- Classes And Fields
------------------------------------------------------------

namespace ScopeAnalysis

namespace PassM

/-
  Enter a class.  Classes are declared in the global scope
  wherever they stand.  A class that was declared before
  opens the scope of its name again.
-/
def enterClass
    (decl : ClassDecl)
    (span : Span) : PassM Unit := do
  let outcome ← step fun p =>
    p.declareIn .global
      (SymbolKey.classKey decl.name)
      (.ofClass decl.name decl.access decl.parent)
      span.start
  match outcome with
  | .declared => pure ()
  | .conflict .. =>
      report (.classAlreadyDefined decl.name span.start)
  change fun p => p.openScope (.ofClass decl.name)

/- Declare a field in the innermost open scope. -/
def declareField
    (decl : FieldDecl)
    (span : Span) : PassM Unit := do
  let outcome ← step fun p =>
    p.declareHere
      (SymbolKey.fieldKey decl.name)
      (.ofField decl.name decl.type decl.access)
      span.start
  match outcome with
  | .declared => pure ()
  | .conflict .. =>
      report (.fieldAlreadyDefined decl.name span.start)

end PassM

/- Leave a class. -/
def Pass.exitClass (p : Pass) : Pass :=
  p.leaveScope

end ScopeAnalysis

------------------------------------------------------------
-- Methods
------------------------------------------------------------

namespace ScopeAnalysis

/-
  Enter a method.  A method whose signature was declared
  before is reported and opens no scope, and its header is
  not checked.
-/
def PassM.enterMethod
    (decl : MethodDecl)
    (span : Span) : PassM Unit := do
  let outcome ← step fun p =>
    p.declareHere
      (SymbolKey.methodKey decl.signature)
      (.ofMethod decl.name decl.returnType decl.access
        decl.formals)
      span.start
  match outcome with
  | .conflict .. => do
      change fun p => p.rememberMethod false
      report (.methodAlreadyDefined decl.name span.start)
  | .declared => do
      change fun p =>
        p.openScope (.ofMethod decl.signature)
      change fun p => p.rememberMethod true
      let options ← ask Pass.options
      reportAll (headerViolations options decl span.start)

/- Leave a method and close the scope it opened, if any. -/
def Pass.exitMethod (p : Pass) : Pass :=
  match p.forgetMethod with
  | (true, q) => q.leaveScope
  | (false, q) => q

end ScopeAnalysis

------------------------------------------------------------
-- Variable Definitions
------------------------------------------------------------

namespace ScopeAnalysis

namespace Pass

/-
  Declare a variable in the innermost open scope.  Declaring
  it again is no mistake, but it is noted down.
-/
def declareVariable
    (p : Pass)
    (arrayLength : Option Nat)
    (span : Span)
    (name : String) : Pass :=
  match
      p.declareHere
        (SymbolKey.variableKey name)
        { Symbol.ofVariable name span.startLine with
          arrayLength := arrayLength }
        span.start with
  | (.declared, q) => q
  | (.conflict _ storedAs, q) =>
      q.note (.variableRedefined name storedAs)

/- Declare all names of a definition in order. -/
def declareVariables
    (p : Pass)
    (definition : VarDef)
    (span : Span) : Pass :=
  definition.names.foldl
    (fun q name =>
      q.declareVariable definition.arrayLength span name)
    p

end Pass

namespace PassM

/-
  Check a call and tell whether it was found to be wrong.
  What is not a call is never wrong.
-/
def checkCall
    (expr : Expr)
    (span : Span) : PassM Bool := do
  let verdict ← ask fun p =>
    judgeCall p.options p.registry expr span.start
  match verdict with
  | .notCall => return false
  | .conforms => return false
  | .unknownTarget key => do
      change fun p =>
        p.note (.targetNotFound key p.registry.current)
      return false
  | .mismatch d => do
      report d
      return true

/- Check calls in order up to the first that is wrong. -/
def checkCalls
    (span : Span) : List Expr → PassM Unit
| [] => pure ()
| expr :: exprs => do
    let wrong ← checkCall expr span
    if wrong then
      pure ()
    else
      checkCalls span exprs

/-
  Define variables: declare all names, then check the
  initializers.
-/
def defineVariables
    (definition : VarDef)
    (span : Span) : PassM Unit := do
  change fun p => p.declareVariables definition span
  checkCalls span definition.initializers

end PassM

end ScopeAnalysis

------------------------------------------------------------
-- Assignments
------------------------------------------------------------

namespace ScopeAnalysis

/- Check the index of an assignment, if it has one. -/
def PassM.checkAssignment
    (assignment : Assignment)
    (span : Span) : PassM Unit := do
  let verdict ← ask fun p =>
    judgeIndex p.registry assignment span.start
  match verdict with
  | .accepted => pure ()
  | .unknownLength =>
      change fun p =>
        p.note (.lengthUnknown assignment.target)
  | .violation d => report d

end ScopeAnalysis

------------------------------------------------------------
-- Blocks
------------------------------------------------------------

namespace ScopeAnalysis

namespace Pass

/- Open the scope of a block and put its marker into it. -/
def openBlock
    (p : Pass)
    (id : ScopeId)
    (key : String)
    (kind : SymbolKind)
    (span : Span) : Pass :=
  ((p.openScope id).declareIn id key
    (.ofBlock kind id.text span.startLine) span.start).2

/-
  Enter a conditional.  The scope of an else-branch lies
  within that of the conditional and has no marker.
-/
def enterConditional
    (p : Pass)
    (conditional : Conditional)
    (span : Span) : Pass :=
  let q :=
    p.openBlock
      (.ofIf span.startLine span.endLine)
      SymbolKey.ifMarker .ifMarker span
  if conditional.hasElse then
    q.openScope (.ofElse span.startLine span.endLine)
  else
    q

/- Leave a conditional, its else-branch first. -/
def exitConditional
    (p : Pass)
    (conditional : Conditional) : Pass :=
  if conditional.hasElse then
    p.leaveScope.leaveScope
  else
    p.leaveScope

/- Enter a loop. -/
def enterLoop
    (p : Pass)
    (span : Span) : Pass :=
  p.openBlock
    (.ofWhile span.startLine span.endLine)
    SymbolKey.loopMarker .loopMarker span

/- Leave a loop. -/
def exitLoop (p : Pass) : Pass :=
  p.leaveScope

end Pass

end ScopeAnalysis

------------------------------------------------------------
-- Nodes
------------------------------------------------------------

namespace ScopeAnalysis

/- Enter a node of any kind. -/
def PassM.enterNode (node : Node) : PassM Unit :=
  match node.kind with
  | .classDecl decl => enterClass decl node.span
  | .fieldDecl decl => declareField decl node.span
  | .methodDecl decl => enterMethod decl node.span
  | .varDef definition =>
      defineVariables definition node.span
  | .assignment assignment =>
      checkAssignment assignment node.span
  | .closedConditional conditional =>
      change fun p =>
        p.enterConditional conditional node.span
  | .closedLoop => change fun p => p.enterLoop node.span
  | .openConditional => pure ()
  | .openLoop => pure ()
  | .block => pure ()
  | .expression _ => pure ()
  | .other => pure ()

/- Leave a node of any kind. -/
def Pass.exitNode
    (p : Pass)
    (node : Node) : Pass :=
  match node.kind with
  | .classDecl _ => p.exitClass
  | .methodDecl _ => p.exitMethod
  | .closedConditional conditional =>
      p.exitConditional conditional
  | .closedLoop => p.exitLoop
  | .fieldDecl _ => p
  | .varDef _ => p
  | .assignment _ => p
  | .openConditional => p
  | .openLoop => p
  | .block => p
  | .expression _ => p
  | .other => p

end ScopeAnalysis
