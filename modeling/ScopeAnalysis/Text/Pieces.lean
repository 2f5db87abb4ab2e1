/-
  Cutting a text at marks.

  Key definitions include:
    * `Text.cut?`
    * `Text.beginsWith`
    * `Text.occursIn`

  Key theorems include:
    * `Text.cut?_eq_some_iff`
    * `Text.append_mark_inj`
    * `Text.standsIn_iff`
-/

------------------------------------------------------------
-- Cutting At The First Mark
------------------------------------------------------------

namespace ScopeAnalysis

namespace Text

/-
  What stands before and behind the first occurrence of a
  mark, or nothing when the text does not have the mark.
-/
def cut?
    (mark : Char)
    (cs : List Char) :
    Option (List Char × List Char) :=
  match cs.dropWhile (· != mark) with
  | [] => none
  | _ :: behind =>
      some (cs.takeWhile (· != mark), behind)

/- Without the mark there is no cut. -/
theorem cut?_eq_none_iff
    {mark : Char}
    {cs : List Char} :
    cut? mark cs = none ↔ mark ∉ cs := by
  induction cs with
  | nil => simp [cut?]
  | cons c cs ih =>
      by_cases h : c = mark
      · simp [cut?, h]
      · have hMark : ¬ mark = c := fun e => h e.symm
        simp only [cut?, List.dropWhile_cons] at ih ⊢
        simp only [bne_iff_ne, ne_eq, h, not_false_eq_true,
          if_true, List.mem_cons, hMark, false_or]
        cases hDrop : cs.dropWhile (· != mark) with
        | nil => simpa [hDrop] using ih
        | cons d ds => simpa [hDrop] using ih

/- A cut is the text around the first mark. -/
theorem cut?_eq_some_iff
    {mark : Char}
    {cs before behind : List Char} :
    cut? mark cs = some (before, behind) ↔
      cs = before ++ mark :: behind ∧ mark ∉ before := by
  induction cs generalizing before with
  | nil => simp [cut?]
  | cons c cs ih =>
      by_cases h : c = mark
      · subst h
        cases before with
        | nil => simp [cut?]
        | cons b bs =>
            simp only [cut?, List.dropWhile_cons,
              List.takeWhile_cons]
            simp
            intro hb
            simp [hb]
      · have hStep :
            cut? mark (c :: cs) =
              (cut? mark cs).map
                fun parts => (c :: parts.1, parts.2) := by
          simp only [cut?, List.dropWhile_cons,
            List.takeWhile_cons, bne_iff_ne, ne_eq, h,
            not_false_eq_true, if_true]
          cases cs.dropWhile (· != mark) <;> rfl
        rw [hStep]
        cases before with
        | nil => simp [h]
        | cons b bs =>
            constructor
            · intro hMap
              obtain ⟨⟨x, y⟩, hCut, hEq⟩ :=
                Option.map_eq_some_iff.mp hMap
              simp only [Prod.mk.injEq, List.cons.injEq]
                at hEq
              obtain ⟨⟨rfl, rfl⟩, rfl⟩ := hEq
              obtain ⟨rfl, hNot⟩ := ih.mp hCut
              refine ⟨rfl, ?_⟩
              simp only [List.mem_cons, not_or]
              exact ⟨fun e => h e.symm, hNot⟩
            · rintro ⟨hCs, hNot⟩
              simp only [List.cons_append,
                List.cons.injEq] at hCs
              obtain ⟨rfl, rfl⟩ := hCs
              simp only [List.mem_cons, not_or] at hNot
              rw [ih.mpr ⟨rfl, hNot.2⟩]
              rfl

/- The first mark separates a text in one way only. -/
theorem append_mark_inj
    {mark : Char}
    {a b x y : List Char}
    (ha : mark ∉ a)
    (hb : mark ∉ b) :
    a ++ mark :: x = b ++ mark :: y ↔ a = b ∧ x = y := by
  constructor
  · intro h
    have hCut : cut? mark (a ++ mark :: x) = some (a, x) :=
      cut?_eq_some_iff.mpr ⟨rfl, ha⟩
    rw [cut?_eq_some_iff.mpr ⟨h, hb⟩, Option.some.injEq,
      Prod.mk.injEq] at hCut
    exact ⟨hCut.1.symm, hCut.2.symm⟩
  · rintro ⟨rfl, rfl⟩
    rfl

end Text

end ScopeAnalysis

------------------------------------------------------------
-- Beginnings And Occurrences
------------------------------------------------------------

namespace ScopeAnalysis

namespace Text

/- Whether a text begins with the given lead. -/
def beginsWith
    (lead text : String) : Bool :=
  lead.toList.isPrefixOf text.toList

/- Whether a word stands somewhere among characters. -/
def standsIn
    (word : List Char) : List Char → Bool
| [] => word.isEmpty
| c :: cs =>
    word.isPrefixOf (c :: cs) || standsIn word cs

/- A word stands in a text when it is a piece of it. -/
theorem standsIn_iff
    {word cs : List Char} :
    standsIn word cs ↔ word <:+: cs := by
  induction cs with
  | nil => simp [standsIn]
  | cons c cs ih =>
      rw [standsIn, Bool.or_eq_true, ih,
        List.isPrefixOf_iff_prefix, List.infix_cons_iff]

/- Whether a word occurs somewhere in a text. -/
def occursIn
    (word text : String) : Bool :=
  standsIn word.toList text.toList

end Text

end ScopeAnalysis
