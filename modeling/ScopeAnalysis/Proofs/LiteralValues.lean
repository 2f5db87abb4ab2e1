import Mathlib.Data.Nat.Digits.Defs
import Mathlib.Tactic.Ring
import ScopeAnalysis.Expr
import ScopeAnalysis.Proofs.Padding

/-
  The integers that expressions denote.

  Key definitions include:
    * `Text.DigitRun`
    * `Text.number`
    * `Text.Denote`
    * `Expr.Denotes`

  Key theorems include:
    * `IntLiteral.magnitude_eq_number`
    * `IntLiteral.denote_iff`
    * `Expr.denotes_iff`
    * `Expr.Denotes.integer?_eq`

  What an expression denotes is told from its text: blanks,
  at most one sign, digits that count by their places, and
  blanks again.  Reading the literal finds this integer
  however large it is, and an index check uses it as long as
  a 64-bit word can hold it.
-/

------------------------------------------------------------
-- Denoted Integers
------------------------------------------------------------

namespace ScopeAnalysis

namespace Text

/- One ASCII digit or more. -/
def DigitRun (cs : List Char) : Prop :=
  cs ≠ [] ∧ ∀ c ∈ cs, c.isDigit

/- The number of a run of digits, by the places of these. -/
def number (cs : List Char) : Nat :=
  Nat.ofDigits 10 (cs.map fun c => c.toNat - 48).reverse

/- One sign at most and a run of digits denote an integer. -/
inductive Denote : List Char → Int → Prop where
| unsigned
    {cs : List Char}
    (hDigits : DigitRun cs) :
    Denote cs (number cs)
| plus
    {cs : List Char}
    (hDigits : DigitRun cs) :
    Denote ('+' :: cs) (number cs)
| minus
    {cs : List Char}
    (hDigits : DigitRun cs) :
    Denote ('-' :: cs) (-number cs)

/- A digit is no blank. -/
theorem isBlank_of_isDigit
    {c : Char}
    (h : c.isDigit) :
    isBlank c = false := by
  have hBounds : 48 ≤ c.toNat ∧ c.toNat ≤ 57 :=
    Char.isDigit_iff_toNat.mp h
  simp [isBlank, blankRanges]
  omega

/- No blank belongs to what denotes an integer. -/
theorem Denote.isBlank_eq_false
    {cs : List Char}
    {value : Int}
    (h : Denote cs value) :
    ∀ c ∈ cs, isBlank c = false := by
  have hRun :
      ∀ {ds : List Char},
        DigitRun ds → ∀ d ∈ ds, isBlank d = false :=
    fun hDigits d hd => isBlank_of_isDigit (hDigits.2 d hd)
  cases h with
  | unsigned hDigits => exact hRun hDigits
  | plus hDigits =>
      exact List.forall_mem_cons.mpr ⟨rfl, hRun hDigits⟩
  | minus hDigits =>
      exact List.forall_mem_cons.mpr ⟨rfl, hRun hDigits⟩

end Text

end ScopeAnalysis

------------------------------------------------------------
-- Literals
------------------------------------------------------------

namespace ScopeAnalysis

open Text

namespace IntLiteral

/- Each digit shifts those in front of it by one place. -/
theorem foldl_digits
    (n : Nat)
    (cs : List Char) :
    cs.foldl
        (fun n d => 10 * n + (d.toNat - '0'.toNat)) n =
      number cs + 10 ^ cs.length * n := by
  induction cs generalizing n with
  | nil => simp [number]
  | cons c cs ih =>
      have hCons :
          number (c :: cs) =
            number cs + 10 ^ cs.length * (c.toNat - 48) := by
        rw [number, List.map_cons, Nat.ofDigits_reverse_cons,
          List.length_map]
        rfl
      have hZero : '0'.toNat = 48 := rfl
      rw [List.foldl_cons, ih, hCons, List.length_cons,
        Nat.pow_succ, hZero]
      ring

/- A literal is as large as its digits are by place. -/
theorem magnitude_eq_number
    (l : IntLiteral) :
    l.magnitude = number l.digits := by
  rw [magnitude, foldl_digits, Nat.mul_zero, Nat.add_zero]

/- The value of a literal is its number, signed. -/
theorem value_eq (l : IntLiteral) :
    l.value =
      if l.negative then
        -(number l.digits : Int)
      else
        number l.digits := by
  rw [value, magnitude_eq_number]

/- The digits of a literal are at least one. -/
theorem ofDigits?_eq_some_iff
    {negative : Bool}
    {cs : List Char}
    {l : IntLiteral} :
    ofDigits? negative cs = some l ↔
      DigitRun cs ∧ l = ⟨negative, cs⟩ := by
  unfold ofDigits? DigitRun
  cases cs with
  | nil => simp
  | cons c cs =>
      rw [List.isEmpty_cons, if_neg (by simp),
        ← List.all_eq_true]
      split
      · rename_i hAll
        simp only [hAll, ne_eq, reduceCtorEq,
          not_false_eq_true, and_self, true_and,
          Option.some.injEq, eq_comm]
      · rename_i hAll
        simp [hAll]

/- What denotes an integer is read as a literal of it. -/
theorem denote_iff
    {cs : List Char}
    {value : Int} :
    Denote cs value ↔
      ∃ l, read? cs = some l ∧ l.value = value := by
  constructor
  · intro h
    cases h with
    | unsigned hDigits =>
        refine ⟨⟨false, cs⟩, ?_, value_eq _⟩
        unfold read?
        split
        · cases hDigits.2 '+' List.mem_cons_self
        · cases hDigits.2 '-' List.mem_cons_self
        · exact ofDigits?_eq_some_iff.mpr ⟨hDigits, rfl⟩
    | plus hDigits =>
        exact
          ⟨⟨false, _⟩,
            ofDigits?_eq_some_iff.mpr ⟨hDigits, rfl⟩,
            value_eq _⟩
    | minus hDigits =>
        exact
          ⟨⟨true, _⟩,
            ofDigits?_eq_some_iff.mpr ⟨hDigits, rfl⟩,
            value_eq _⟩
  · rintro ⟨l, hRead, rfl⟩
    rw [value_eq]
    unfold read? at hRead
    split at hRead <;>
      rcases ofDigits?_eq_some_iff.mp hRead with
        ⟨hDigits, rfl⟩
    · exact .plus hDigits
    · exact .minus hDigits
    · exact .unsigned hDigits

end IntLiteral

end ScopeAnalysis

------------------------------------------------------------
-- Expressions
------------------------------------------------------------

namespace ScopeAnalysis

open Text

namespace Expr

/- An expression denotes an integer, blanks aside. -/
def Denotes
    (e : Expr)
    (value : Int) : Prop :=
  ∃ front core behind,
    e.text.toList = front ++ core ++ behind ∧
      (∀ c ∈ front, isBlank c) ∧
      (∀ c ∈ behind, isBlank c) ∧
      Denote core value

variable {e : Expr}
variable {value : Int}

/- The integer literal of an expression has its value. -/
theorem denotes_iff :
    e.Denotes value ↔
      ∃ l, e.integerLiteral? = some l ∧ l.value = value := by
  rw [integerLiteral?, ← IntLiteral.denote_iff]
  constructor
  · rintro ⟨front, core, behind, hText, hFront, hBehind,
      hDenote⟩
    rwa [hText,
      trim_of_surrounded hFront hDenote.isBlank_eq_false
        hBehind]
  · intro hDenote
    rcases exists_trim e.text.toList with
      ⟨front, behind, hText, hFront, hBehind⟩
    exact
      ⟨front, _, behind, hText, hFront, hBehind, hDenote⟩

/- An expression denotes one integer at most. -/
theorem Denotes.unique
    {other : Int}
    (h : e.Denotes value)
    (hOther : e.Denotes other) :
    value = other := by
  rcases denotes_iff.mp h with ⟨l, hRead, rfl⟩
  rcases denotes_iff.mp hOther with ⟨m, hOtherRead, rfl⟩
  rw [hRead] at hOtherRead
  cases hOtherRead
  rfl

/- An integer literal is what denotes some integer. -/
theorem isIntegerLiteral_iff :
    e.isIntegerLiteral ↔ ∃ value, e.Denotes value := by
  simp only [isIntegerLiteral, Option.isSome_iff_exists,
    denotes_iff]
  constructor
  · rintro ⟨l, hRead⟩
    exact ⟨l.value, l, hRead, rfl⟩
  · rintro ⟨_, l, hRead, _⟩
    exact ⟨l, hRead⟩

/- A denoted integer is used if a 64-bit word can hold it. -/
theorem Denotes.integer?_eq
    (h : e.Denotes value) :
    e.integer? =
      if IntLiteral.Representable value then
        some value
      else
        none := by
  rcases denotes_iff.mp h with ⟨l, hRead, rfl⟩
  rw [integer?, hRead, Option.map_some, Option.filter]
  simp

end Expr

end ScopeAnalysis
