import ScopeAnalysis.Text.Pieces

/-
  Places in a text, counted in bytes.

  Key definitions include:
    * `Text.byteLength`
    * `Text.find?`
    * `Text.splitAt?`
    * `Text.slice?`

  Key theorems include:
    * `Text.exists_find?_of_mem`
    * `Text.splitAt?_eq_some_iff`
    * `Text.slice?_eq_some_iff`

  A place is the number of bytes in front of it.  Not every
  number is one: it can lie within a character or behind the
  end.  A slice is taken between two places, and there is no
  slice if one of the numbers is no place or if they come in
  the wrong order.
-/

------------------------------------------------------------
-- Lengths
------------------------------------------------------------

namespace ScopeAnalysis

namespace Text

/- The number of bytes of a text. -/
def byteLength : List Char → Nat
| [] => 0
| c :: cs => c.utf8Size + byteLength cs

@[simp] theorem byteLength_append
    (cs ds : List Char) :
    byteLength (cs ++ ds) = byteLength cs + byteLength ds := by
  induction cs with
  | nil => rw [List.nil_append, byteLength, Nat.zero_add]
  | cons c cs ih =>
      rw [List.cons_append, byteLength, byteLength, ih,
        Nat.add_assoc]

/- A shorter beginning is a beginning of a longer one. -/
theorem exists_append_of_byteLength_le
    {as bs cs ds : List Char}
    (h : as ++ bs = cs ++ ds)
    (hLength : byteLength as ≤ byteLength cs) :
    ∃ between, cs = as ++ between ∧ bs = between ++ ds := by
  rcases List.append_eq_append_iff.mp h with
    hBetween | ⟨excess, hExcess, hRest⟩
  · exact hBetween
  · -- Then there is no excess, as every character has a byte.
    cases excess with
    | nil =>
        rw [List.append_nil] at hExcess
        exact ⟨[], by simp [hExcess], by simpa using hRest.symm⟩
    | cons c excess =>
        have hByte := c.utf8Size_pos
        rw [hExcess, byteLength_append, byteLength] at hLength
        omega

end Text

end ScopeAnalysis

------------------------------------------------------------
-- Marks
------------------------------------------------------------

namespace ScopeAnalysis

namespace Text

/- The place of the first occurrence of a mark. -/
def find?
    (mark : Char) : List Char → Option Nat
| [] => none
| c :: cs =>
    if c = mark then
      some 0
    else
      (find? mark cs).map fun place => c.utf8Size + place

theorem find?_of_not_mem
    {mark : Char}
    {cs : List Char}
    (h : mark ∉ cs) :
    find? mark cs = none := by
  induction cs with
  | nil => rfl
  | cons c cs ih =>
      rw [List.mem_cons, not_or] at h
      rw [find?, if_neg (Ne.symm h.1), ih h.2, Option.map_none]

/- The place of a mark is the length of what precedes it. -/
theorem find?_of_first
    {mark : Char}
    {before : List Char}
    (h : mark ∉ before)
    (behind : List Char) :
    find? mark (before ++ mark :: behind) =
      some (byteLength before) := by
  induction before with
  | nil => exact if_pos rfl
  | cons c before ih =>
      rw [List.mem_cons, not_or] at h
      rw [List.cons_append, find?, if_neg (Ne.symm h.1),
        ih h.2, Option.map_some, byteLength]

theorem exists_find?_of_mem
    {mark : Char}
    {cs : List Char}
    (h : mark ∈ cs) :
    ∃ before behind,
      cs = before ++ mark :: behind ∧
        mark ∉ before ∧
          find? mark cs = some (byteLength before) := by
  rcases List.eq_append_cons_of_mem h with
    ⟨before, behind, rfl, hFirst⟩
  exact
    ⟨before, behind, rfl, hFirst, find?_of_first hFirst behind⟩

end Text

end ScopeAnalysis

------------------------------------------------------------
-- Slices
------------------------------------------------------------

namespace ScopeAnalysis

namespace Text

/-
  The two parts of a text around a place.  A number of bytes
  that ends within a character or behind the text has none.
-/
def splitAt? :
    Nat → List Char → Option (List Char × List Char)
| 0, cs => some ([], cs)
| _ + 1, [] => none
| n + 1, c :: cs =>
    if c.utf8Size ≤ n + 1 then
      (splitAt? (n + 1 - c.utf8Size) cs).map fun parts =>
        (c :: parts.1, parts.2)
    else
      none

/- The part of a text between two places. -/
def slice?
    (start finish : Nat)
    (cs : List Char) : Option (List Char) :=
  if start ≤ finish then
    (splitAt? start cs).bind fun parts =>
      (splitAt? (finish - start) parts.2).map Prod.fst
  else
    none

theorem splitAt?_zero
    (cs : List Char) :
    splitAt? 0 cs = some ([], cs) := by
  rw [splitAt?]

/- A text is split behind whatever it begins with. -/
theorem splitAt?_append
    (front behind : List Char) :
    splitAt? (byteLength front) (front ++ behind) =
      some (front, behind) := by
  induction front with
  | nil => exact splitAt?_zero behind
  | cons c front ih =>
      have hByte := c.utf8Size_pos
      rcases Nat.exists_eq_add_one_of_ne_zero
          (n := byteLength (c :: front))
          (by rw [byteLength]; omega) with
        ⟨n, hn⟩
      have hSize : c.utf8Size + byteLength front = n + 1 := hn
      have hRest : n + 1 - c.utf8Size = byteLength front := by
        omega
      rw [hn, List.cons_append, splitAt?, if_pos (by omega),
        hRest, ih, Option.map_some]

/- It is split only where as many bytes end a character. -/
theorem splitAt?_eq_some_iff
    {n : Nat}
    {cs front behind : List Char} :
    splitAt? n cs = some (front, behind) ↔
      cs = front ++ behind ∧ n = byteLength front := by
  constructor
  · intro h
    induction cs generalizing n front with
    | nil =>
        cases n with
        | zero =>
            rw [splitAt?_zero] at h
            cases h
            exact ⟨rfl, rfl⟩
        | succ n => cases h
    | cons c cs ih =>
        cases n with
        | zero =>
            rw [splitAt?_zero] at h
            cases h
            exact ⟨rfl, rfl⟩
        | succ n =>
            rw [splitAt?] at h
            split at h
            · rename_i hFits
              rcases Option.map_eq_some_iff.mp h with
                ⟨⟨rest, last⟩, hRest, hParts⟩
              cases hParts
              rcases ih hRest with ⟨rfl, hLength⟩
              refine ⟨rfl, ?_⟩
              dsimp only
              rw [byteLength]
              omega
            · cases h
  · rintro ⟨rfl, rfl⟩
    exact splitAt?_append front behind

/- There is a slice just where there is such a piece. -/
theorem slice?_eq_some_iff
    {start finish : Nat}
    {cs piece : List Char} :
    slice? start finish cs = some piece ↔
      ∃ front behind,
        cs = front ++ (piece ++ behind) ∧
          start = byteLength front ∧
            finish = byteLength (front ++ piece) := by
  unfold slice?
  constructor
  · intro h
    split at h
    · rcases Option.bind_eq_some_iff.mp h with
        ⟨⟨front, rest⟩, hFront, hMap⟩
      rcases Option.map_eq_some_iff.mp hMap with
        ⟨⟨found, behind⟩, hPiece, rfl⟩
      rcases splitAt?_eq_some_iff.mp hFront with
        ⟨rfl, hStart⟩
      rcases splitAt?_eq_some_iff.mp hPiece with
        ⟨rfl, hFinish⟩
      refine ⟨front, behind, rfl, hStart, ?_⟩
      dsimp only
      rw [byteLength_append]
      omega
    · cases h
  · rintro ⟨front, behind, rfl, rfl, rfl⟩
    rw [byteLength_append, if_pos (Nat.le_add_right _ _),
      splitAt?_append, Option.bind_some,
      Nat.add_sub_cancel_left, splitAt?_append,
      Option.map_some]

end Text

end ScopeAnalysis
