/-
  Blank characters and trimmed texts.

  Key definitions include:
    * `Text.blankRanges`
    * `Text.isBlank`
    * `Text.trim`

  Key theorems include:
    * `Text.trim_eq_nil_iff`

  A blank is a character with the Unicode property
  `White_Space`.  The property is closed: it has the 25
  members listed here and gains no others.
-/

------------------------------------------------------------
-- Blank Characters
------------------------------------------------------------

namespace ScopeAnalysis

namespace Text

/- First and last code point of each run of blanks. -/
def blankRanges : List (Nat × Nat) :=
  [ (0x0009, 0x000D),
    (0x0020, 0x0020),
    (0x0085, 0x0085),
    (0x00A0, 0x00A0),
    (0x1680, 0x1680),
    (0x2000, 0x200A),
    (0x2028, 0x2029),
    (0x202F, 0x202F),
    (0x205F, 0x205F),
    (0x3000, 0x3000) ]

/- A character is blank when some run contains it. -/
def isBlank (c : Char) : Bool :=
  blankRanges.any fun range =>
    range.1 ≤ c.toNat && c.toNat ≤ range.2

end Text

end ScopeAnalysis

------------------------------------------------------------
-- Trimming
------------------------------------------------------------

namespace ScopeAnalysis

namespace Text

/- A text without the blanks in front of it. -/
def trimStart (cs : List Char) : List Char :=
  cs.dropWhile isBlank

/- A text without the blanks behind it. -/
def trimEnd (cs : List Char) : List Char :=
  (cs.reverse.dropWhile isBlank).reverse

/- A text without the blanks around it. -/
def trim (cs : List Char) : List Char :=
  trimEnd (trimStart cs)

/- Only an all-blank text is blank up to its end. -/
private theorem dropBlank_eq_nil_iff
    {cs : List Char} :
    cs.dropWhile isBlank = [] ↔ ∀ c ∈ cs, isBlank c := by
  induction cs with
  | nil => simp
  | cons c cs ih =>
      by_cases h : isBlank c <;> simp [h, ih]

/- What is left after the blanks in front starts with none. -/
private theorem head_trimStart
    {c : Char}
    {cs rest : List Char}
    (h : trimStart cs = c :: rest) :
    isBlank c = false := by
  induction cs with
  | nil => simp [trimStart] at h
  | cons d ds ih =>
      unfold trimStart at h ih
      by_cases hd : isBlank d
      · rw [List.dropWhile_cons_of_pos hd] at h
        exact ih h
      · rw [List.dropWhile_cons_of_neg hd] at h
        simp only [List.cons.injEq] at h
        simpa [h.1] using hd

/- Nothing is left of a text exactly when it is all blank. -/
theorem trim_eq_nil_iff
    {cs : List Char} :
    trim cs = [] ↔ ∀ c ∈ cs, isBlank c := by
  constructor
  · intro h
    have hAll : ∀ c ∈ trimStart cs, isBlank c := by
      intro c hc
      refine dropBlank_eq_nil_iff.mp ?_ c
        (List.mem_reverse.mpr hc)
      simpa [trim, trimEnd] using h
    apply dropBlank_eq_nil_iff.mp
    cases hLeft : trimStart cs with
    | nil => exact hLeft
    | cons c rest =>
        have hc := hAll c (by simp [hLeft])
        simp [head_trimStart hLeft] at hc
  · intro h
    have hLeft : trimStart cs = [] :=
      dropBlank_eq_nil_iff.mpr h
    simp [trim, trimEnd, hLeft]

end Text

end ScopeAnalysis
