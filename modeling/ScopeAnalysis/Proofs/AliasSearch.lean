import Mathlib.Algebra.Ring.Int.Defs
import Mathlib.Algebra.Ring.Nat
import ScopeAnalysis.Proofs.Alias

/-
  The search for a free alias as a loop.

  Key definitions include:
    * `AliasSearch`
    * `AliasSearch.turn?`
    * `AliasSearch.after`
    * `AliasSearch.Ends`
    * `AliasSearch.toInt`
    * `FindsFirstFree`

  Key theorems include:
    * `ScopeTable.freeIndex_le_size`
    * `AliasSearch.after_eq`
    * `AliasSearch.toInt_after`
    * `findsFirstFree`

  The loop looks at one candidate after the other and counts
  on until a candidate is free.  Nothing in it bounds the
  number of its turns.  It ends all the same, since each
  turn finds another entry of the table, and it ends with
  the alias that the table gives out.

  Any type of counters will do for the loop.  Counters of 32
  bits take it through the same states as integers do unless
  the table is so large that a counter could overflow.
-/

------------------------------------------------------------
-- The Loop
------------------------------------------------------------

namespace ScopeAnalysis

/-
  What the search has at hand between two turns: the
  candidate to look at, and the counter for the next one.
-/
structure AliasSearch (γ : Type) where
  candidate : String
  counter : γ

namespace AliasSearch

section Loop

variable {γ : Type}
variable [OfNat γ 1] [OfNat γ 2] [Add γ] [ToString γ]

/- The search begins with the base alone. -/
def start (base : String) : AliasSearch γ :=
  ⟨base, 2⟩

/-
  One turn.  A taken candidate makes way for the base with
  the counter behind it, and a free one ends the search.
-/
def turn?
    (t : ScopeTable)
    (base : String)
    (s : AliasSearch γ) : Option (AliasSearch γ) :=
  if t.contains s.candidate then
    some
      ⟨base ++ "_" ++ toString s.counter, s.counter + 1⟩
  else
    none

/- The search after some turns, unless it ended before. -/
def after
    (t : ScopeTable)
    (base : String) : Nat → Option (AliasSearch γ)
| 0 => some (start base)
| n + 1 => (after t base n).bind (turn? t base)

end Loop

/- A search ends at free candidates only. -/
theorem turn?_eq_none_iff
    {γ : Type}
    [OfNat γ 1] [Add γ] [ToString γ]
    {t : ScopeTable}
    {base : String}
    {s : AliasSearch γ} :
    turn? t base s = none ↔
      t.contains s.candidate = false := by
  simp [turn?]

/- The search makes some turns and ends with an alias. -/
def Ends
    (γ : Type)
    [OfNat γ 1] [OfNat γ 2] [Add γ] [ToString γ]
    (t : ScopeTable)
    (base : String)
    (turns : Nat)
    (result : String) : Prop :=
  ∃ last : AliasSearch γ,
    after t base turns = some last ∧
      turn? t base last = none ∧
        last.candidate = result

end AliasSearch

end ScopeAnalysis

------------------------------------------------------------
-- Counting With Integers
------------------------------------------------------------

namespace ScopeAnalysis

/- No more candidates are passed over than are taken. -/
theorem ScopeTable.freeIndex_le_size
    (t : ScopeTable)
    (base : String) :
    t.freeIndex base ≤ t.size := by
  unfold freeIndex
  cases hFind :
      (List.range t.size).find? fun n =>
        !t.contains (aliasCandidate base n) with
  | none => exact Nat.le_refl t.size
  | some n =>
      have hRange : n ∈ List.range t.size :=
        (List.find?_range_eq_some.mp hFind).2.1
      exact Nat.le_of_lt (List.mem_range.mp hRange)

/- Up to the chosen candidate, all the others are taken. -/
theorem ScopeTable.contains_iff_lt_freeIndex
    (t : ScopeTable)
    (base : String)
    {n : Nat}
    (hn : n ≤ t.freeIndex base) :
    t.contains (aliasCandidate base n) ↔
      n < t.freeIndex base := by
  constructor
  · intro hTaken
    apply Nat.lt_of_le_of_ne hn
    rintro rfl
    rw [t.freeIndex_free base] at hTaken
    cases hTaken
  · exact freeIndex_least

namespace AliasSearch

variable (t : ScopeTable)
variable (base : String)

/- The state in which a candidate is looked at. -/
def standing (n : Nat) : AliasSearch Int :=
  ⟨aliasCandidate base n, n + 2⟩

/- A turn leads to the next candidate if one is needed. -/
theorem turn?_standing
    {n : Nat}
    (hn : n ≤ t.freeIndex base) :
    turn? t base (standing base n) =
      if n < t.freeIndex base then
        some (standing base (n + 1))
      else
        none := by
  have hCounter :
      (n : Int) + 2 + 1 = (n + 1 : Nat) + 2 := by
    omega
  rw [turn?, standing, hCounter]
  simp only [t.contains_iff_lt_freeIndex base hn]
  rfl

/- The turns go through the candidates up to a free one. -/
theorem after_eq
    (n : Nat) :
    after t base n =
      if n ≤ t.freeIndex base then
        some (standing base n)
      else
        none := by
  induction n with
  | zero => rfl
  | succ n ih =>
      rw [after, ih]
      by_cases hn : n ≤ t.freeIndex base
      · rw [if_pos hn, Option.bind_some,
          turn?_standing t base hn]
        rfl
      · rw [if_neg hn, if_neg (by omega), Option.bind_none]

/- The search ends at the first candidate that is free. -/
theorem ends_freeIndex :
    Ends Int t base (t.freeIndex base)
      (aliasCandidate base (t.freeIndex base)) := by
  have hHere := Nat.le_refl (t.freeIndex base)
  refine ⟨standing base (t.freeIndex base), ?_, ?_, rfl⟩
  · rw [after_eq, if_pos hHere]
  · rw [turn?_standing t base hHere,
      if_neg (Nat.lt_irrefl _)]

end AliasSearch

end ScopeAnalysis

------------------------------------------------------------
-- Counting With 32 Bits
------------------------------------------------------------

namespace ScopeAnalysis

namespace AliasSearch

variable {t : ScopeTable}
variable {base : String}

/- A search with its counter read as an integer. -/
def toInt (s : AliasSearch Int32) : AliasSearch Int :=
  ⟨s.candidate, s.counter.toInt⟩

/- Below the greatest counter there is another one. -/
theorem toInt_counter_add_one
    {c : Int32}
    (hMin : 0 ≤ c.toInt)
    (hMax : c.toInt < 2 ^ 31 - 1) :
    (c + 1).toInt = c.toInt + 1 := by
  rw [Int32.toInt_add, Int32.toInt_one]
  apply Int.bmod_eq_of_le_mul_two
  · omega
  · omega

/- A turn does the same if its counter has room. -/
theorem toInt_turn?
    {s : AliasSearch Int32}
    (hRoom :
      t.contains s.candidate →
        0 ≤ s.counter.toInt ∧
          s.counter.toInt < 2 ^ 31 - 1) :
    (turn? t base s).map toInt = turn? t base s.toInt := by
  rw [turn?, turn?, toInt]
  by_cases hTaken : t.contains s.candidate
  · rcases hRoom hTaken with ⟨hMin, hMax⟩
    rw [if_pos hTaken, if_pos hTaken, Option.map_some,
      toInt, toInt_counter_add_one hMin hMax]
    rfl
  · rw [if_neg hTaken, if_neg hTaken, Option.map_none]

/-
  In a small table each counter has room: more candidates
  are taken before a counter that has none than there are
  entries.
-/
theorem room_of_standing
    (hSize : t.size < 2 ^ 31 - 2)
    {n : Nat}
    (hn : n ≤ t.freeIndex base)
    {s : AliasSearch Int32}
    (hs : s.toInt = standing base n)
    (hTaken : t.contains s.candidate) :
    0 ≤ s.counter.toInt ∧
      s.counter.toInt < 2 ^ 31 - 1 := by
  have hCandidate : s.candidate = aliasCandidate base n :=
    congrArg AliasSearch.candidate hs
  have hCounter : s.counter.toInt = n + 2 :=
    congrArg AliasSearch.counter hs
  rw [hCandidate, t.contains_iff_lt_freeIndex base hn]
    at hTaken
  have hIndex := t.freeIndex_le_size base
  omega

/- So all turns are the same, whatever counts them. -/
theorem toInt_after
    (hSize : t.size < 2 ^ 31 - 2)
    (n : Nat) :
    (after t base n).map toInt = after t base n := by
  induction n with
  | zero => rfl
  | succ n ih =>
      rw [after, after, ← ih]
      cases hState :
          (after t base n : Option (AliasSearch Int32)) with
      | none => rfl
      | some s =>
          rw [hState, Option.map_some, after_eq] at ih
          split at ih
          · rename_i hn
            have hs := Option.some.inj ih
            exact toInt_turn? (room_of_standing hSize hn hs)
          · cases ih

/- And the search ends as it does with integers. -/
theorem Ends.of_integers
    {turns : Nat}
    {result : String}
    (hSize : t.size < 2 ^ 31 - 2)
    (h : Ends Int t base turns result) :
    Ends Int32 t base turns result := by
  rcases h with ⟨last, hAfter, hFree, hResult⟩
  rw [← toInt_after hSize, Option.map_eq_some_iff] at hAfter
  rcases hAfter with ⟨s, hState, rfl⟩
  refine ⟨s, hState, ?_, hResult⟩
  rw [turn?_eq_none_iff] at hFree ⊢
  exact hFree

end AliasSearch

end ScopeAnalysis

------------------------------------------------------------
-- The First Free Alias
------------------------------------------------------------

namespace ScopeAnalysis

open AliasSearch

/-
  How an alias of a key is found from a base.  The candidates
  are the base and the base with a counter, and they differ.
  The search takes no more turns than the table has entries,
  and ends with the alias that the table gives out, which is
  free and the first free candidate in order.  The turns go
  through the candidates, and the counter stays within the
  number of entries plus two.  So 32 bits do as well as
  integers as long as there are fewer than 2 ^ 31 - 2
  entries.
-/
structure FindsFirstFree
    (t : ScopeTable)
    (key : String)
    (position : Position)
    (base : String) : Prop where
  candidates :
    aliasCandidate base 0 = base ∧
      ∀ n,
        aliasCandidate base (n + 1) =
          base ++ "_" ++ toString (n + 2)
  candidates_differ :
    Function.Injective (aliasCandidate base)
  ends :
    ∃ turns ≤ t.size,
      Ends Int t base turns (t.freeAlias key position)
  turns_bounded :
    ∀ turns (s : AliasSearch Int),
      after t base turns = some s →
        turns ≤ t.size ∧
          s.candidate = aliasCandidate base turns ∧
            s.counter ≤ t.size + 2
  free : t.freeAlias key position ∉ t.keys
  first :
    ∃ n,
      t.freeAlias key position = aliasCandidate base n ∧
        ∀ m < n, aliasCandidate base m ∈ t.keys
  fits :
    t.size < 2 ^ 31 - 2 →
      (∀ turns,
        (after t base turns).map toInt =
          after t base turns) ∧
        ∃ turns ≤ t.size,
          Ends Int32 t base turns (t.freeAlias key position)

/-
  Every table, key and position has such a search, from the
  key with the position behind it.
-/
theorem findsFirstFree
    (t : ScopeTable)
    (key : String)
    (position : Position) :
    FindsFirstFree t key position
      (key ++ "_" ++ toString position.line ++
        "_" ++ toString position.column) := by
  change FindsFirstFree t key position (aliasKey key position)
  have hIndex := t.freeIndex_le_size (aliasKey key position)
  have hEnds := ends_freeIndex t (aliasKey key position)
  refine
    ⟨⟨rfl, fun _ => rfl⟩, aliasCandidate_injective _,
      ⟨_, hIndex, hEnds⟩, ?_, ?_, ⟨_, rfl, ?_⟩, ?_⟩
  · intro turns s hAfter
    rw [after_eq] at hAfter
    split at hAfter
    · rw [Option.some.injEq] at hAfter
      rw [← hAfter]
      refine ⟨by omega, rfl, ?_⟩
      change (turns : Int) + 2 ≤ t.size + 2
      omega
    · cases hAfter
  · rw [← OrderedMap.get?_eq_none_iff]
    exact t.get?_freeAlias key position
  · intro m hm
    rw [← OrderedMap.contains_iff]
    exact ScopeTable.freeIndex_least hm
  · intro hSize
    exact
      ⟨toInt_after hSize, _, hIndex,
        hEnds.of_integers hSize⟩

/- A gap behind taken candidates is filled. -/
example :
    let t : ScopeTable :=
      ["x", "x_3_4", "x_3_4_2", "x_3_4_4"].foldl
        (fun t key => t.put key (.ofVariable "x" 3)) .empty
    t.freeAlias "x" ⟨3, 4⟩ = "x_3_4_3" := by
  decide +kernel

end ScopeAnalysis
