import Mathlib.Data.List.Forall2
import Mathlib.Data.List.TakeWhile
import ScopeAnalysis.Text.Blank

/-
  Texts with blanks around them.

  Key definitions include:
    * `Text.Padded`
    * `Text.Trails`

  Key theorems include:
    * `Text.exists_trim`
    * `Text.trim_of_padded`
    * `Text.trim_of_surrounded`
    * `Text.padded_splitOn`
    * `Text.map_trim_of_padded`

  Trimming cuts off the blanks around a text, so it gives the
  same for a text and for any padding of it.  A mark is not
  blank, so padding a text before it is cut at marks pads the
  pieces that it is cut into.
-/

------------------------------------------------------------
-- Padded Texts
------------------------------------------------------------

namespace ScopeAnalysis

namespace Text

/- Trimming cuts off blanks and nothing else. -/
theorem exists_trim
    (cs : List Char) :
    ∃ front behind,
      cs = front ++ trim cs ++ behind ∧
        (∀ c ∈ front, isBlank c) ∧
        ∀ c ∈ behind, isBlank c := by
  let back := (trimStart cs).reverse
  refine
    ⟨cs.takeWhile isBlank, (back.takeWhile isBlank).reverse,
      ?_, ?_, ?_⟩
  · have hBack :
        trimStart cs =
          trim cs ++ (back.takeWhile isBlank).reverse := by
      rw [trim, trimEnd, ← List.reverse_append,
        List.takeWhile_append_dropWhile,
        List.reverse_reverse]
    rw [List.append_assoc, ← hBack]
    exact List.takeWhile_append_dropWhile.symm
  · intro c hc
    exact List.mem_takeWhile_imp hc
  · intro c hc
    exact List.mem_takeWhile_imp (List.mem_reverse.mp hc)

/- A text with any blanks around it. -/
def Padded
    (core cs : List Char) : Prop :=
  ∃ front behind,
    cs = front ++ core ++ behind ∧
      (∀ c ∈ front, isBlank c) ∧
        ∀ c ∈ behind, isBlank c

theorem padded_trim
    (cs : List Char) :
    Padded (trim cs) cs :=
  exists_trim cs

theorem not_mem_blanks
    {mark : Char}
    {blanks : List Char}
    (hMark : isBlank mark = false)
    (hBlanks : ∀ c ∈ blanks, isBlank c) :
    mark ∉ blanks := by
  intro hMem
  simp [hBlanks mark hMem] at hMark

/- A mark that is no blank comes from within the padding. -/
theorem Padded.mem_iff
    {core cs : List Char}
    (h : Padded core cs)
    {mark : Char}
    (hMark : isBlank mark = false) :
    mark ∈ cs ↔ mark ∈ core := by
  rcases h with ⟨front, behind, rfl, hFront, hBehind⟩
  simp [not_mem_blanks hMark hFront,
    not_mem_blanks hMark hBehind]

theorem trim_append_blanks
    {core behind : List Char}
    (hBehind : ∀ c ∈ behind, isBlank c) :
    trim (core ++ behind) = trim core := by
  by_cases hStart : trimStart core = []
  · have hNothing : trim core = [] := by
      rw [trim, hStart]
      rfl
    rw [hNothing, trim_eq_nil_iff]
    rw [trim_eq_nil_iff] at hNothing
    intro c hc
    exact (List.mem_append.mp hc).elim (hNothing c) (hBehind c)
  · have hFront :
        trimStart (core ++ behind) =
          trimStart core ++ behind := by
      rw [trimStart, trimStart, List.dropWhile_append]
      rw [trimStart] at hStart
      simp [hStart]
    have hBack : ∀ c ∈ behind.reverse, isBlank c := by
      intro c hc
      exact hBehind c (List.mem_reverse.mp hc)
    rw [trim, hFront, trim, trimEnd, List.reverse_append,
      List.dropWhile_append_of_pos hBack, trimEnd]

/- Padding does not change what is left by trimming. -/
theorem trim_of_padded
    {core cs : List Char}
    (h : Padded core cs) :
    trim cs = trim core := by
  rcases h with ⟨front, behind, rfl, hFront, hBehind⟩
  rw [trim_append_blanks hBehind, trim, trimStart,
    List.dropWhile_append_of_pos hFront]
  rfl

/- A text without blanks is found again between blanks. -/
theorem trim_of_surrounded
    {front core behind : List Char}
    (hFront : ∀ c ∈ front, isBlank c)
    (hCore : ∀ c ∈ core, isBlank c = false)
    (hBehind : ∀ c ∈ behind, isBlank c) :
    trim (front ++ core ++ behind) = core := by
  have hKept :
      ∀ {cs : List Char},
        (∀ c ∈ cs, isBlank c = false) →
          cs.dropWhile isBlank = cs := by
    intro cs hCs
    cases cs with
    | nil => rfl
    | cons c cs =>
        have hHead := hCs c List.mem_cons_self
        exact List.dropWhile_cons_of_neg (by simp [hHead])
  have hBack : ∀ c ∈ core.reverse, isBlank c = false := by
    intro c hc
    exact hCore c (List.mem_reverse.mp hc)
  rw [trim_of_padded ⟨front, behind, rfl, hFront, hBehind⟩,
    trim, trimStart, hKept hCore, trimEnd, hKept hBack,
    List.reverse_reverse]

end Text

end ScopeAnalysis

------------------------------------------------------------
-- Padded Pieces
------------------------------------------------------------

namespace ScopeAnalysis

namespace Text

variable {mark : Char}

/- What relates two heads survives a change of both. -/
theorem forall₂_modifyHead
    {α β : Type}
    {R : α → β → Prop}
    {f : α → α}
    {g : β → β}
    {xs : List α}
    {ys : List β}
    (hHead : ∀ x y, R x y → R (f x) (g y))
    (h : List.Forall₂ R xs ys) :
    List.Forall₂ R (xs.modifyHead f) (ys.modifyHead g) := by
  cases h with
  | nil => exact .nil
  | cons hFirst hRest => exact .cons (hHead _ _ hFirst) hRest

/- A piece with any blanks behind it. -/
def Trails
    (piece cs : List Char) : Prop :=
  ∃ blanks, cs = piece ++ blanks ∧ ∀ c ∈ blanks, isBlank c

/- Blanks behind a text are behind its last piece. -/
theorem trails_splitOn
    (core : List Char)
    {behind : List Char}
    (hMark : isBlank mark = false)
    (hBehind : ∀ c ∈ behind, isBlank c) :
    List.Forall₂ Trails (core.splitOn mark)
      ((core ++ behind).splitOn mark) := by
  induction core with
  | nil =>
      have hWhole : behind.splitOn mark = [behind] :=
        List.splitOn_eq_singleton
          (not_mem_blanks hMark hBehind)
      rw [List.nil_append, hWhole, List.splitOn_nil]
      exact .cons ⟨behind, rfl, hBehind⟩ .nil
  | cons c core ih =>
      rw [List.cons_append,
        List.splitOn_cons_eq_if_modifyHead,
        List.splitOn_cons_eq_if_modifyHead]
      by_cases hHere : c == mark
      · rw [if_pos hHere, if_pos hHere]
        exact .cons ⟨[], rfl, by simp⟩ ih
      · rw [if_neg hHere, if_neg hHere]
        refine forall₂_modifyHead ?_ ih
        rintro piece _ ⟨blanks, rfl, hBlanks⟩
        exact ⟨blanks, rfl, hBlanks⟩

/- Padding a text pads its pieces. -/
theorem padded_splitOn
    {core cs : List Char}
    (hMark : isBlank mark = false)
    (h : Padded core cs) :
    List.Forall₂ Padded (core.splitOn mark)
      (cs.splitOn mark) := by
  rcases h with ⟨front, behind, rfl, hFront, hBehind⟩
  induction front with
  | nil =>
      refine (trails_splitOn core hMark hBehind).imp ?_
      rintro piece _ ⟨blanks, rfl, hBlanks⟩
      exact ⟨[], blanks, rfl, by simp, hBlanks⟩
  | cons c front ih =>
      rcases List.forall_mem_cons.mp hFront with
        ⟨hBlank, hFront⟩
      have hOther : ¬ (c == mark) = true := by
        intro hSame
        rw [beq_iff_eq.mp hSame, hMark] at hBlank
        cases hBlank
      rw [List.cons_append, List.cons_append,
        List.splitOn_cons_eq_if_modifyHead, if_neg hOther]
      have hSame :
          (core.splitOn mark).modifyHead id =
            core.splitOn mark :=
        congrFun List.modifyHead_id _
      rw [← hSame]
      refine forall₂_modifyHead ?_ (ih hFront)
      rintro piece _ ⟨before, after, rfl, hBefore, hAfter⟩
      exact
        ⟨c :: before, after, rfl,
          List.forall_mem_cons.mpr ⟨hBlank, hBefore⟩, hAfter⟩

/- A mark that is no blank comes from within some piece. -/
theorem exists_mem_padded_iff
    {pieces padded : List (List Char)}
    (hMark : isBlank mark = false)
    (h : List.Forall₂ Padded pieces padded) :
    (∃ cs ∈ padded, mark ∈ cs) ↔
      ∃ piece ∈ pieces, mark ∈ piece := by
  induction h with
  | nil => simp
  | cons hHead _ ih =>
      simp only [List.mem_cons, exists_eq_or_imp, ih,
        hHead.mem_iff hMark]

/- Joining pieces adds nothing but marks. -/
theorem mem_intercalate_iff
    {c : Char}
    {pieces : List (List Char)}
    (h : c ≠ mark) :
    c ∈ [mark].intercalate pieces ↔
      ∃ piece ∈ pieces, c ∈ piece := by
  induction pieces with
  | nil => simp
  | cons piece pieces ih =>
      by_cases hNone : pieces = []
      · simp [hNone]
      · rw [List.intercalate_cons_of_ne_nil hNone]
        simp [h, ih]

/- Padded pieces are trimmed alike. -/
theorem map_trim_of_padded
    {pieces padded : List (List Char)}
    (h : List.Forall₂ Padded pieces padded) :
    padded.map trim = pieces.map trim := by
  induction h with
  | nil => rfl
  | cons hHead _ ih =>
      rw [List.map_cons, List.map_cons, trim_of_padded hHead,
        ih]

end Text

end ScopeAnalysis
