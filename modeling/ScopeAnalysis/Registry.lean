import ScopeAnalysis.ScopeId
import ScopeAnalysis.ScopeTable

/-
  The registry of all scopes of one analysis.

  Key definitions include:
    * `Registry`
    * `Registry.openScopes`
    * `Registry.enter`
    * `Registry.exit`
    * `Registry.declare`
    * `Registry.lookup`
    * `Registry.resolve`

  The registry holds a table for every scope that was ever
  entered or declared into, in order of discovery, and the
  scopes that are open.  Closing a scope keeps its table, so
  a report can list it and the scope can be entered again.

  The global scope is always open.  Only the scopes opened
  above it are recorded, so there is no way to close it.
-/

------------------------------------------------------------
-- Registries
------------------------------------------------------------

namespace ScopeAnalysis

/-
  All scopes in order of discovery, and those open above the
  global scope, innermost first.
-/
structure Registry where
  scopes : OrderedMap ScopeId ScopeTable
  inner : List ScopeId

namespace Registry

/- The registry that knows the global scope only. -/
def initial : Registry where
  scopes := OrderedMap.singleton .global .empty
  inner := []

/- The open scopes, innermost first. -/
def openScopes (r : Registry) : List ScopeId :=
  r.inner ++ [.global]

/- The innermost open scope. -/
def current (r : Registry) : ScopeId :=
  r.inner.headD .global

/- The number of open scopes. -/
def depth (r : Registry) : Nat :=
  r.openScopes.length

/- No scope but the global one is open. -/
def isGlobalScope (r : Registry) : Bool :=
  r.inner.isEmpty

/- The names of all scopes in order of discovery. -/
def discoveryOrder (r : Registry) : List ScopeId :=
  r.scopes.keys

/- The table of a scope, if the scope was discovered. -/
def table?
    (r : Registry)
    (id : ScopeId) : Option ScopeTable :=
  r.scopes.get? id

/- The table of a scope; an unknown scope has no symbols. -/
def tableOf
    (r : Registry)
    (id : ScopeId) : ScopeTable :=
  (r.table? id).getD .empty

end Registry

end ScopeAnalysis

------------------------------------------------------------
-- Opening And Closing
------------------------------------------------------------

namespace ScopeAnalysis

namespace Registry

/- Open a scope, which discovers it if need be. -/
def enter
    (r : Registry)
    (id : ScopeId) : Registry where
  scopes := r.scopes.put id (r.tableOf id)
  inner := id :: r.inner

/-
  Close the innermost scope and tell which it was.  With
  only the global scope open, nothing happens.
-/
def exit (r : Registry) : Option ScopeId × Registry :=
  match r.inner with
  | [] => (none, r)
  | id :: outer => (some id, { r with inner := outer })

end Registry

end ScopeAnalysis

------------------------------------------------------------
-- Declaring And Looking Up
------------------------------------------------------------

namespace ScopeAnalysis

namespace Registry

/-
  Declare a symbol in a scope, which discovers the scope if
  need be.  The position serves to build an alias when the
  key is taken.
-/
def declare
    (r : Registry)
    (scope : ScopeId)
    (key : String)
    (symbol : Symbol)
    (position : Position) : Declaration × Registry :=
  ( (r.tableOf scope).outcome key position,
    { r with
      scopes := r.scopes.put scope
        ((r.tableOf scope).store key symbol position) } )

/- The symbol that one scope has under a key. -/
def lookup
    (r : Registry)
    (scope : ScopeId)
    (key : String) : Option Symbol :=
  (r.tableOf scope).get? key

/- The symbol that the innermost open scope has for a key. -/
def resolve
    (r : Registry)
    (key : String) : Option Symbol :=
  r.openScopes.findSome? fun scope => r.lookup scope key

end Registry

end ScopeAnalysis
