/-
  Integer literals.

  Key definitions include:
    * `IntLiteral`
    * `IntLiteral.read?`
    * `IntLiteral.magnitude`
    * `IntLiteral.value`
    * `IntLiteral.Representable`

  A literal is an optional sign in front of at least one
  ASCII digit.  It denotes a mathematical integer of any
  size; whether that integer fits into a signed word of 64
  bits is a separate question.
-/

------------------------------------------------------------
-- Literals
------------------------------------------------------------

namespace ScopeAnalysis

/- A literal, split into its sign and its digits. -/
structure IntLiteral where
  negative : Bool
  digits : List Char
deriving DecidableEq

namespace IntLiteral

/- Take a text for the digits of a literal. -/
def ofDigits?
    (negative : Bool)
    (cs : List Char) : Option IntLiteral :=
  if cs.isEmpty then
    none
  else if cs.all Char.isDigit then
    some ⟨negative, cs⟩
  else
    none

/- Read a whole text as a literal. -/
def read? : List Char → Option IntLiteral
| '+' :: cs => ofDigits? false cs
| '-' :: cs => ofDigits? true cs
| cs => ofDigits? false cs

/- The number that the digits write in base ten. -/
def magnitude (l : IntLiteral) : Nat :=
  l.digits.foldl
    (fun n d => 10 * n + (d.toNat - '0'.toNat)) 0

/- The integer that a literal denotes. -/
def value (l : IntLiteral) : Int :=
  if l.negative then
    -(l.magnitude : Int)
  else
    l.magnitude

/-
  An integer fits into a signed word of 64 bits: it lies
  from minus two to the 63rd up to, but not including, two
  to the 63rd.
-/
def Representable (n : Int) : Prop :=
  -9223372036854775808 ≤ n ∧ n ≤ 9223372036854775807

instance (n : Int) : Decidable (Representable n) := by
  unfold Representable
  infer_instance

end IntLiteral

end ScopeAnalysis
