import ScopeAnalysis.OrderedMap
import ScopeAnalysis.Position
import ScopeAnalysis.Symbol

/-
  Symbol tables of single scopes.

  Key definitions include:
    * `ScopeTable`
    * `ScopeTable.define`
    * `ScopeTable.sortedEntries`
    * `aliasKey`
    * `ScopeTable.freeAlias`
    * `Declaration`
    * `ScopeTable.declare`
    * `ScopeTable.outcome`
    * `ScopeTable.store`

  Key theorems include:
    * `ScopeTable.get?_store_place`
    * `ScopeTable.get?_store_of_ne`

  A table never replaces a symbol.  A symbol whose key is
  taken is stored under an alias: the key with the position
  behind it, and a counter behind that when the alias is
  taken as well.
-/

------------------------------------------------------------
-- Tables
------------------------------------------------------------

namespace ScopeAnalysis

/- The symbols of one scope by key. -/
abbrev ScopeTable :=
  OrderedMap String Symbol

namespace ScopeTable

/-
  Store a symbol under a free key.  A taken key yields the
  symbol that has it.
-/
def define
    (t : ScopeTable)
    (key : String)
    (symbol : Symbol) : Except Symbol ScopeTable :=
  match t.get? key with
  | some existing => .error existing
  | none => .ok (t.put key symbol)

/-
  The entries ordered by key.  Keys are compared by code
  point, which is also the order of their UTF-8 bytes.
-/
def sortedEntries
    (t : ScopeTable) : List (String × Symbol) :=
  t.entries.mergeSort fun a b => a.1 ≤ b.1

end ScopeTable

end ScopeAnalysis

------------------------------------------------------------
-- Aliases
------------------------------------------------------------

namespace ScopeAnalysis

/- The first alias of a key at a position. -/
def aliasKey
    (key : String)
    (position : Position) : String :=
  key ++ "_" ++ toString position.line ++
    "_" ++ toString position.column

/-
  The aliases to try: the base alone, then the base with the
  counters two, three and so on.
-/
def aliasCandidate
    (base : String) : Nat → String
| 0 => base
| n + 1 => base ++ "_" ++ toString (n + 2)

namespace ScopeTable

/-
  The number of the first free candidate.  The candidates
  differ from one another, so a table of `n` entries leaves
  one of the first `n + 1` free, and it is the last of these
  when all before it are taken.
-/
def freeIndex
    (t : ScopeTable)
    (base : String) : Nat :=
  ((List.range t.size).find? fun n =>
    !t.contains (aliasCandidate base n)).getD t.size

/- The first free alias of a key at a position. -/
def freeAlias
    (t : ScopeTable)
    (key : String)
    (position : Position) : String :=
  aliasCandidate (aliasKey key position)
    (t.freeIndex (aliasKey key position))

end ScopeTable

end ScopeAnalysis

------------------------------------------------------------
-- Declarations
------------------------------------------------------------

namespace ScopeAnalysis

/- How the declaration of a symbol came out. -/
inductive Declaration where
| declared
| conflict
    (existing : Symbol)
    (storedAs : String)
deriving DecidableEq

namespace Declaration

/- The key under which the declared symbol is stored. -/
def place
    (key : String) : Declaration → String
| .declared => key
| .conflict _ storedAs => storedAs

end Declaration

namespace ScopeTable

/-
  Declare a symbol: define it under its key, or under an
  alias when the key is taken.  What an alias is refused is
  not stored at all.
-/
def declare
    (t : ScopeTable)
    (key : String)
    (symbol : Symbol)
    (position : Position) : Declaration × ScopeTable :=
  match t.define key symbol with
  | .ok defined => (.declared, defined)
  | .error existing =>
      let storedAs := t.freeAlias key position
      match t.define storedAs symbol with
      | .ok defined => (.conflict existing storedAs, defined)
      | .error _ => (.conflict existing storedAs, t)

/- How declaring a symbol under a key comes out. -/
def outcome
    (t : ScopeTable)
    (key : String)
    (position : Position) : Declaration :=
  match t.get? key with
  | none => .declared
  | some existing =>
      .conflict existing (t.freeAlias key position)

/- Store a symbol under its key, or else under an alias. -/
def store
    (t : ScopeTable)
    (key : String)
    (symbol : Symbol)
    (position : Position) : ScopeTable :=
  t.put ((t.outcome key position).place key) symbol

/- A stored symbol is found at its place. -/
theorem get?_store_place
    (t : ScopeTable)
    (key : String)
    (symbol : Symbol)
    (position : Position) :
    (t.store key symbol position).get?
        ((t.outcome key position).place key) =
      some symbol :=
  OrderedMap.get?_put_self t _ symbol

/- Storing a symbol leaves all other places alone. -/
theorem get?_store_of_ne
    (t : ScopeTable)
    {key j : String}
    (symbol : Symbol)
    {position : Position}
    (h : j ≠ (t.outcome key position).place key) :
    (t.store key symbol position).get? j = t.get? j :=
  OrderedMap.get?_put_of_ne t symbol h

end ScopeTable

end ScopeAnalysis
