import Mathlib.Data.Finmap
import ScopeAnalysis.ScopeId
import ScopeAnalysis.ScopeTable

/-
  The three books that are kept on scopes.

  Key definitions include:
    * `ScopeLedger`
    * `ScopeLedger.ensureTable`
    * `ScopeLedger.enter`
    * `ScopeLedger.exit`
    * `ScopeLedger.declare`
    * `ScopeLedger.declareHere`
    * `ScopeLedger.scopes`

  The tables by name have no order, so the order of discovery
  is kept beside them, and so are the open scopes, with the
  global one among them.  Nothing in the type makes the three
  agree: that is up to the uses of a ledger.
-/

------------------------------------------------------------
-- Ledgers
------------------------------------------------------------

namespace ScopeAnalysis

/-
  The tables of scopes, the scopes in order of discovery, and
  the open ones, outermost first.
-/
structure ScopeLedger where
  tables : Finmap fun _ : ScopeId => ScopeTable
  order : List ScopeId
  stack : List ScopeId

namespace ScopeLedger

/- The ledger that knows the global scope only. -/
def initial : ScopeLedger where
  tables := Finmap.singleton .global .empty
  order := [.global]
  stack := [.global]

/- The innermost open scope, if any scope is open. -/
def current? (l : ScopeLedger) : Option ScopeId :=
  l.stack.getLast?

/- The number of open scopes. -/
def depth (l : ScopeLedger) : Nat :=
  l.stack.length

/- The symbol that one scope has under a key. -/
def lookup
    (l : ScopeLedger)
    (scope : ScopeId)
    (key : String) : Option Symbol :=
  (l.tables.lookup scope).bind fun t => t.get? key

/- The symbol that the innermost open scope has for a key. -/
def resolve
    (l : ScopeLedger)
    (key : String) : Option Symbol :=
  l.stack.reverse.findSome? fun scope => l.lookup scope key

/-
  The scopes in order of discovery with their tables.  One
  that has no table is passed over.
-/
def scopes
    (l : ScopeLedger) : List (ScopeId × ScopeTable) :=
  l.order.filterMap fun id =>
    (l.tables.lookup id).map fun t => (id, t)

end ScopeLedger

end ScopeAnalysis

------------------------------------------------------------
-- Uses
------------------------------------------------------------

namespace ScopeAnalysis

namespace ScopeLedger

/- Give a scope a table, unless it was discovered before. -/
def ensureTable
    (l : ScopeLedger)
    (id : ScopeId) : ScopeLedger :=
  if id ∈ l.tables then
    l
  else
    { l with
      tables := l.tables.insert id .empty
      order := l.order ++ [id] }

/- Open a scope, which has a table from then on. -/
def enter
    (l : ScopeLedger)
    (id : ScopeId) : ScopeLedger :=
  { l.ensureTable id with
    stack := (l.ensureTable id).stack ++ [id] }

/-
  Close the innermost scope and tell which it was.  The last
  open scope stays open.
-/
def exit
    (l : ScopeLedger) : Option ScopeId × ScopeLedger :=
  if 1 < l.stack.length then
    (l.stack.getLast?, { l with stack := l.stack.dropLast })
  else
    (none, l)

/- Declare a symbol in a scope, which has a table then. -/
def declare
    (l : ScopeLedger)
    (scope : ScopeId)
    (key : String)
    (symbol : Symbol)
    (position : Position) : Declaration × ScopeLedger :=
  let known := l.ensureTable scope
  let table := (known.tables.lookup scope).getD .empty
  let (answer, stored) := table.declare key symbol position
  ( answer,
    { known with
      tables := known.tables.insert scope stored } )

/-
  Declare a symbol in the innermost open scope.  With no
  scope open there is nowhere to declare it.
-/
def declareHere
    (l : ScopeLedger)
    (key : String)
    (symbol : Symbol)
    (position : Position) :
    Option (Declaration × ScopeLedger) :=
  l.current?.map fun scope =>
    l.declare scope key symbol position

end ScopeLedger

end ScopeAnalysis
