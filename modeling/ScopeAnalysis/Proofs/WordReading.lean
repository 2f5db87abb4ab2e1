import ScopeAnalysis.Proofs.LiteralValues

/-
  Reading integers into signed words of 64 bits.

  Key definitions include:
    * `Word.checked?`
    * `Word.push?`
    * `Word.pushAll?`
    * `Word.read?`
    * `Text.decimal`
    * `Expr.ReadsIntegers`

  Key theorems include:
    * `Word.pushAll?_signed`
    * `Word.read?_eq_some_iff`
    * `Text.decimal_zero`
    * `Text.denote_decimal`
    * `Expr.readsIntegers`

  A word is read digit by digit, and each step has to stay
  within the word.  Digits never bring a number closer to
  zero, so no step fails unless the whole number does not
  fit, and leading zeros cost nothing.  A negative number is
  built downwards, as the least word has no opposite.
-/

------------------------------------------------------------
-- Checked Steps
------------------------------------------------------------

namespace ScopeAnalysis

open IntLiteral (Representable)

namespace Word

/- An integer as a word, if it fits into one. -/
def checked? (n : Int) : Option Int :=
  if Representable n then some n else none

/- A natural number with a sign. -/
def signed
    (negative : Bool)
    (n : Nat) : Int :=
  if negative then -n else n

/-
  Put a digit behind a word: ten times the word, then the
  digit added to it, or taken off a negative one.
-/
def push?
    (negative : Bool)
    (word : Int)
    (c : Char) : Option Int :=
  if c.isDigit then
    (checked? (10 * word)).bind fun tenfold =>
      checked?
        (tenfold + signed negative (c.toNat - '0'.toNat))
  else
    none

/- Put digits behind a word, up to the first failure. -/
def pushAll?
    (negative : Bool)
    (word : Int) : List Char → Option Int
| [] => some word
| c :: cs =>
    (push? negative word c).bind fun longer =>
      pushAll? negative longer cs

/- Read a whole text as a word; a sign alone is none. -/
def read? : List Char → Option Int
| [] => none
| ['+'] => none
| ['-'] => none
| '+' :: cs => pushAll? false 0 cs
| '-' :: cs => pushAll? true 0 cs
| cs => pushAll? false 0 cs

end Word

end ScopeAnalysis

------------------------------------------------------------
-- Digits Behind A Word
------------------------------------------------------------

namespace ScopeAnalysis

open IntLiteral (Representable)

namespace Word

variable {negative : Bool}
variable {m n : Nat}
variable {c : Char}
variable {cs : List Char}

/- What is closer to zero fits if the other does. -/
theorem representable_of_le
    (hLe : m ≤ n)
    (h : Representable (signed negative n)) :
    Representable (signed negative m) := by
  unfold Representable signed at *
  split at h
  · rw [if_pos ‹_›]
    omega
  · rw [if_neg ‹_›]
    omega

/- The two checks of a step come down to the second one. -/
theorem push?_signed
    (hDigit : c.isDigit) :
    push? negative (signed negative n) c =
      checked?
        (signed negative
          (10 * n + (c.toNat - '0'.toNat))) := by
  have hTen :
      10 * signed negative n = signed negative (10 * n) := by
    unfold signed
    split <;> omega
  have hSum :
      ∀ d : Nat,
        signed negative (10 * n) + signed negative d =
          signed negative (10 * n + d) := by
    intro d
    unfold signed
    split <;> omega
  rw [push?, if_pos hDigit, hTen]
  by_cases hTenfold : Representable (signed negative (10 * n))
  · rw [checked?, if_pos hTenfold, Option.bind_some, hSum]
  · have hMore :
        ¬ Representable
          (signed negative
            (10 * n + (c.toNat - '0'.toNat))) :=
      mt (representable_of_le (Nat.le_add_right _ _)) hTenfold
    rw [checked?, if_neg hTenfold, Option.bind_none, checked?,
      if_neg hMore]

/- Digits behind a number never make it smaller. -/
theorem le_ofDigitChars
    (n : Nat)
    (cs : List Char) :
    n ≤ Nat.ofDigitChars 10 cs n := by
  induction cs generalizing n with
  | nil => rw [Nat.ofDigitChars_nil]
  | cons c cs ih =>
      rw [Nat.ofDigitChars_cons]
      have hRest := ih (10 * n + (c.toNat - '0'.toNat))
      omega

/-
  Pushing digits is checked once and for all at the end.  A
  step that fails leaves the number too large for good.
-/
theorem pushAll?_signed
    (hDigits : ∀ c ∈ cs, c.isDigit)
    (h : Representable (signed negative n)) :
    pushAll? negative (signed negative n) cs =
      checked?
        (signed negative (Nat.ofDigitChars 10 cs n)) := by
  induction cs generalizing n with
  | nil =>
      rw [pushAll?, Nat.ofDigitChars_nil, checked?, if_pos h]
  | cons c cs ih =>
      rcases List.forall_mem_cons.mp hDigits with
        ⟨hDigit, hRest⟩
      rw [pushAll?, push?_signed hDigit,
        Nat.ofDigitChars_cons]
      by_cases hNext :
          Representable
            (signed negative
              (10 * n + (c.toNat - '0'.toNat)))
      · rw [checked?, if_pos hNext, Option.bind_some,
          ih hRest hNext]
      · have hEnd :=
          mt (representable_of_le
            (le_ofDigitChars
              (10 * n + (c.toNat - '0'.toNat)) cs))
            hNext
        rw [checked?, if_neg hNext, Option.bind_none,
          checked?, if_neg hEnd]

/- Nothing but digits can be pushed. -/
theorem isDigit_of_pushAll?
    {word value : Int}
    (h : pushAll? negative word cs = some value) :
    ∀ c ∈ cs, c.isDigit := by
  induction cs generalizing word with
  | nil => exact List.forall_mem_nil _
  | cons c cs ih =>
      rw [pushAll?] at h
      rcases Option.bind_eq_some_iff.mp h with
        ⟨longer, hFirst, hRest⟩
      have hDigit : c.isDigit := by
        by_contra hNot
        rw [push?, if_neg hNot] at hFirst
        cases hFirst
      exact List.forall_mem_cons.mpr ⟨hDigit, ih hRest⟩

end Word

end ScopeAnalysis

------------------------------------------------------------
-- Whole Words
------------------------------------------------------------

namespace ScopeAnalysis

open IntLiteral (Representable)
open Text (Denote DigitRun number)

/- The number of digits, as the digits come in. -/
theorem Text.number_eq_ofDigitChars
    (cs : List Char) :
    number cs = Nat.ofDigitChars 10 cs 0 := by
  have hFold := IntLiteral.foldl_digits 0 cs
  rw [Nat.mul_zero, Nat.add_zero] at hFold
  exact hFold.symm

namespace Word

variable {negative : Bool}
variable {value : Int}
variable {cs : List Char}

theorem checked?_eq_some_iff
    {n : Int} :
    checked? n = some value ↔
      value = n ∧ Representable value := by
  unfold checked?
  split
  · rename_i hFits
    rw [Option.some.injEq]
    constructor
    · rintro rfl
      exact ⟨rfl, hFits⟩
    · rintro ⟨rfl, _⟩
      rfl
  · rename_i hFits
    constructor
    · intro h
      cases h
    · rintro ⟨rfl, hOther⟩
      exact (hFits hOther).elim

/- Digits are pushed to their number, if that one fits. -/
theorem pushAll?_eq_some_iff :
    pushAll? negative 0 cs = some value ↔
      (∀ c ∈ cs, c.isDigit) ∧
        value = signed negative (number cs) ∧
          Representable value := by
  have hZero : signed negative 0 = 0 := by
    cases negative <;> rfl
  have hPush :
      (∀ c ∈ cs, c.isDigit) →
        pushAll? negative 0 cs =
          checked? (signed negative (number cs)) := by
    intro hDigits
    have hFits : Representable (signed negative 0) := by
      rw [hZero]
      decide
    rw [← hZero, pushAll?_signed hDigits hFits,
      Text.number_eq_ofDigitChars]
  constructor
  · intro h
    have hDigits := isDigit_of_pushAll? h
    rw [hPush hDigits] at h
    exact ⟨hDigits, checked?_eq_some_iff.mp h⟩
  · rintro ⟨hDigits, hValue⟩
    rw [hPush hDigits]
    exact checked?_eq_some_iff.mpr hValue

/-
  What is read is what the text denotes, as long as a word
  can hold it.
-/
theorem read?_eq_some_iff :
    read? cs = some value ↔
      Denote cs value ∧ Representable value := by
  constructor
  · intro h
    unfold read? at h
    split at h
    · cases h
    · cases h
    · cases h
    · rename_i ds hSome
      rcases pushAll?_eq_some_iff.mp h with
        ⟨hDigits, rfl, hFits⟩
      exact ⟨.plus ⟨hSome, hDigits⟩, hFits⟩
    · rename_i ds hSome
      rcases pushAll?_eq_some_iff.mp h with
        ⟨hDigits, rfl, hFits⟩
      exact ⟨.minus ⟨hSome, hDigits⟩, hFits⟩
    · rename_i hSome _ _ _ _
      rcases pushAll?_eq_some_iff.mp h with
        ⟨hDigits, rfl, hFits⟩
      exact ⟨.unsigned ⟨hSome, hDigits⟩, hFits⟩
  · rintro ⟨hDenote, hFits⟩
    have hRead :
        ∀ {ds : List Char} {sign : Bool},
          DigitRun ds →
            value = signed sign (number ds) →
              pushAll? sign 0 ds = some value :=
      fun hRun hValue =>
        pushAll?_eq_some_iff.mpr ⟨hRun.2, hValue, hFits⟩
    cases hDenote with
    | unsigned hRun =>
        unfold read?
        split
        · exact (hRun.1 rfl).elim
        · cases hRun.2 '+' List.mem_cons_self
        · cases hRun.2 '-' List.mem_cons_self
        · cases hRun.2 '+' List.mem_cons_self
        · cases hRun.2 '-' List.mem_cons_self
        · exact hRead hRun rfl
    | plus hRun =>
        rw [read?]
        · exact hRead hRun rfl
        · exact hRun.1
    | minus hRun =>
        rw [read?]
        · exact hRead hRun rfl
        · exact hRun.1

end Word

end ScopeAnalysis

------------------------------------------------------------
-- Written Integers
------------------------------------------------------------

namespace ScopeAnalysis

open IntLiteral (Representable)

namespace Text

/- An integer in base ten, with zeros behind its sign. -/
def decimal
    (value : Int)
    (zeros : Nat) : List Char :=
  (if value < 0 then ['-'] else []) ++
    (List.replicate zeros '0' ++
      (toString value.natAbs).toList)

/- Without zeros this is how integers are written. -/
theorem decimal_zero
    (value : Int) :
    decimal value 0 = (toString value).toList := by
  cases value with
  | ofNat n => rfl
  | negSucc n =>
      have hText :
          toString (Int.negSucc n) = "-" ++ toString (n + 1) :=
        rfl
      rw [decimal, if_pos (Int.negSucc_lt_zero n), hText,
        String.toList_append]
      rfl

/- The digits of a number write it, zeros in front or not. -/
theorem digitRun_decimal
    (zeros n : Nat) :
    DigitRun
      (List.replicate zeros '0' ++ (toString n).toList) := by
  rw [Nat.toString_eq_ofList_toDigits, String.toList_ofList]
  refine ⟨?_, ?_⟩
  · intro hNil
    exact
      Nat.toDigits_ne_nil (List.append_eq_nil_iff.mp hNil).2
  · intro c hc
    rcases List.mem_append.mp hc with hZero | hDigit
    · rw [List.eq_of_mem_replicate hZero]
      rfl
    · exact
        Nat.isDigit_of_mem_toDigits (by decide) (by decide)
          hDigit

/- Zeros in front do not count. -/
theorem number_decimal
    (zeros n : Nat) :
    number
        (List.replicate zeros '0' ++ (toString n).toList) =
      n := by
  rw [number_eq_ofDigitChars, Nat.ofDigitChars_append,
    Nat.ofDigitChars_replicate_zero, Nat.mul_zero,
    Nat.toString_eq_ofList_toDigits, String.toList_ofList,
    Nat.ofDigitChars_ten_toDigits]

/- A written integer denotes the integer. -/
theorem denote_decimal
    (value : Int)
    (zeros : Nat) :
    Denote (decimal value zeros) value := by
  have hRun := digitRun_decimal zeros value.natAbs
  have hNumber := number_decimal zeros value.natAbs
  unfold decimal
  split
  · rename_i hNegative
    have hDenote := Denote.minus hRun
    rw [hNumber] at hDenote
    have hValue : -(value.natAbs : Int) = value := by omega
    rw [hValue] at hDenote
    exact hDenote
  · rename_i hPositive
    have hDenote := Denote.unsigned hRun
    rw [hNumber] at hDenote
    have hValue : (value.natAbs : Int) = value := by omega
    rw [hValue] at hDenote
    exact hDenote

end Text

end ScopeAnalysis

------------------------------------------------------------
-- Expressions
------------------------------------------------------------

namespace ScopeAnalysis

open Text

namespace Expr

variable {e : Expr}

/- The integer of an expression is denoted, and it fits. -/
theorem integer?_eq_some_iff
    {value : Int} :
    e.integer? = some value ↔
      e.Denotes value ∧ IntLiteral.Representable value := by
  constructor
  · intro h
    rcases Option.filter_eq_some_iff.mp h with
      ⟨hLiteral, hFits⟩
    rcases Option.map_eq_some_iff.mp hLiteral with
      ⟨l, hRead, hValue⟩
    exact
      ⟨denotes_iff.mpr ⟨l, hRead, hValue⟩,
        of_decide_eq_true hFits⟩
  · rintro ⟨hDenotes, hFits⟩
    rw [hDenotes.integer?_eq, if_pos hFits]

/- What an expression denotes is what its trimmed text does. -/
theorem denotes_iff_trim
    {value : Int} :
    e.Denotes value ↔ Denote (trim e.text.toList) value := by
  rw [denotes_iff, IntLiteral.denote_iff]
  rfl

/- Checked steps read the same integer. -/
theorem integer?_eq_read?
    (e : Expr) :
    e.integer? = Word.read? (trim e.text.toList) := by
  apply Option.ext
  intro value
  rw [integer?_eq_some_iff, denotes_iff_trim,
    Word.read?_eq_some_iff]

theorem representable_iff
    {value : Int} :
    IntLiteral.Representable value ↔
      -2 ^ 63 ≤ value ∧ value ≤ 2 ^ 63 - 1 := by
  rw [IntLiteral.Representable]
  omega

/- A word is read back from its digits, blanks aside. -/
theorem integer?_of_decimal
    {value : Int}
    {zeros : Nat}
    {front behind : List Char}
    (hFits : IntLiteral.Representable value)
    (hFront : ∀ c ∈ front, isBlank c)
    (hBehind : ∀ c ∈ behind, isBlank c)
    (hText :
      e.text.toList =
        front ++ decimal value zeros ++ behind) :
    e.integer? = some value :=
  integer?_eq_some_iff.mpr
    ⟨⟨front, _, behind, hText, hFront, hBehind,
        denote_decimal value zeros⟩,
      hFits⟩

/-
  What is read from an expression as an integer.  Blanks
  aside, it is a literal if it denotes any integer at all,
  and its integer is the one denoted if a word of 64 bits can
  hold that.  A reading in checked steps finds the same, and
  every integer of a word is read back from any way to write
  it in base ten.
-/
structure ReadsIntegers (e : Expr) : Prop where
  literal_iff :
    e.isIntegerLiteral ↔ ∃ value, e.Denotes value
  integer_iff :
    ∀ value : Int,
      e.integer? = some value ↔
        e.Denotes value ∧
          -2 ^ 63 ≤ value ∧ value ≤ 2 ^ 63 - 1
  no_integer_iff :
    e.integer? = none ↔
      ∀ value : Int,
        e.Denotes value → value < -2 ^ 63 ∨ 2 ^ 63 ≤ value
  read_checked :
    e.integer? =
      if e.isIntegerLiteral then
        Word.read? (trim e.text.toList)
      else
        none
  read_back :
    ∀ (value : Int) zeros front behind,
      -2 ^ 63 ≤ value →
        value ≤ 2 ^ 63 - 1 →
          (∀ c ∈ front, isBlank c) →
            (∀ c ∈ behind, isBlank c) →
              e.text.toList =
                  front ++ decimal value zeros ++ behind →
                e.integer? = some value
  round_trip :
    ∀ value : Int,
      -2 ^ 63 ≤ value →
        value ≤ 2 ^ 63 - 1 →
          e.text = toString value → e.integer? = some value

/- The integers of all expressions are read like this. -/
theorem readsIntegers
    (e : Expr) :
    e.ReadsIntegers := by
  have hIff :
      ∀ value : Int,
        e.integer? = some value ↔
          e.Denotes value ∧
            -2 ^ 63 ≤ value ∧ value ≤ 2 ^ 63 - 1 := by
    intro value
    rw [integer?_eq_some_iff, representable_iff]
  refine
    { literal_iff := isIntegerLiteral_iff
      integer_iff := hIff
      no_integer_iff := ?_
      read_checked := ?_
      read_back := ?_
      round_trip := ?_ }
  · rw [Option.eq_none_iff_forall_ne_some]
    constructor
    · intro hNone value hDenotes
      by_contra hIn
      exact
        hNone value
          ((hIff value).mpr ⟨hDenotes, by omega, by omega⟩)
    · intro hOut value hSome
      rcases (hIff value).mp hSome with
        ⟨hDenotes, hLow, hHigh⟩
      rcases hOut value hDenotes with hBelow | hAbove
      · omega
      · omega
  · split
    · exact e.integer?_eq_read?
    · rename_i hNot
      rw [Option.eq_none_iff_forall_ne_some]
      intro value hSome
      apply hNot
      rw [isIntegerLiteral_iff]
      exact ⟨value, ((hIff value).mp hSome).1⟩
  · intro value zeros front behind hLow hHigh hFront hBehind
      hText
    exact
      integer?_of_decimal
        (representable_iff.mpr ⟨hLow, hHigh⟩) hFront hBehind
        hText
  · intro value hLow hHigh hText
    have hDecimal :
        e.text.toList = [] ++ decimal value 0 ++ [] := by
      rw [hText, decimal_zero, List.nil_append,
        List.append_nil]
    exact
      integer?_of_decimal
        (representable_iff.mpr ⟨hLow, hHigh⟩)
        (List.forall_mem_nil _) (List.forall_mem_nil _)
        hDecimal

end Expr

end ScopeAnalysis
