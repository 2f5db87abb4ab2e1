import Mathlib.Data.List.Nodup
import Mathlib.Data.List.Perm.Subperm
import ScopeAnalysis.ScopeTable

/-
  The search for a free alias.

  Key theorems include:
    * `aliasCandidate_injective`
    * `ScopeTable.freeIndex_least`
    * `ScopeTable.get?_freeAlias`
    * `ScopeTable.get?_place`
    * `ScopeTable.declare_eq`
    * `ScopeTable.endsInDigit_freeAlias`

  The candidates for an alias are pairwise different, so a
  table cannot hold more of them than it has entries.  The
  search therefore finds a free one, and storing a symbol
  never drops another.
-/

------------------------------------------------------------
-- Candidates
------------------------------------------------------------

namespace ScopeAnalysis

/- Different numbers are written differently. -/
theorem toString_nat_injective
    {m n : Nat}
    (h : toString m = toString n) :
    m = n := by
  rw [Nat.toString_eq_ofList_toDigits,
    Nat.toString_eq_ofList_toDigits,
    String.ofList_inj] at h
  have hValue := congrArg
    (fun digits => Nat.ofDigitChars 10 digits 0) h
  simpa using hValue

/- No two candidates for an alias are the same. -/
theorem aliasCandidate_injective
    (base : String) :
    Function.Injective (aliasCandidate base) := by
  -- The bare base is told apart by its length.
  have hBare :
      ∀ n, base ≠ aliasCandidate base (n + 1) := by
    intro n hEq
    have hLength := congrArg String.length hEq
    simp only [aliasCandidate, String.length_append]
      at hLength
    have hMark : "_".length = 1 := rfl
    omega
  intro m n hEq
  cases m with
  | zero =>
      cases n with
      | zero => rfl
      | succ n => exact (hBare n hEq).elim
  | succ m =>
      cases n with
      | zero => exact (hBare m hEq.symm).elim
      | succ n =>
          simp only [aliasCandidate, String.append_assoc,
            String.append_right_inj] at hEq
          have hCounter := toString_nat_injective hEq
          omega

end ScopeAnalysis

------------------------------------------------------------
-- The First Free Candidate
------------------------------------------------------------

namespace ScopeAnalysis

/- A map contains the keys that have arrived. -/
theorem OrderedMap.contains_iff
    {κ α : Type}
    [DecidableEq κ]
    (m : OrderedMap κ α)
    (k : κ) :
    m.contains k ↔ k ∈ m.keys := by
  unfold OrderedMap.contains
  rw [Option.isSome_iff_ne_none, ne_eq,
    OrderedMap.get?_eq_none_iff, not_not]

namespace ScopeTable

/- All candidates in front of the chosen one are taken. -/
theorem freeIndex_least
    {t : ScopeTable}
    {base : String}
    {n : Nat}
    (hn : n < t.freeIndex base) :
    t.contains (aliasCandidate base n) := by
  unfold freeIndex at hn
  cases hFind :
      (List.range t.size).find? fun n =>
        !t.contains (aliasCandidate base n) with
  | none =>
      rw [hFind, Option.getD_none] at hn
      simpa using
        List.find?_range_eq_none.mp hFind n hn
  | some i =>
      rw [hFind, Option.getD_some] at hn
      simpa using
        (List.find?_range_eq_some.mp hFind).2.2 n hn

/- The chosen candidate is free. -/
theorem freeIndex_free
    (t : ScopeTable)
    (base : String) :
    t.contains (aliasCandidate base (t.freeIndex base)) =
      false := by
  cases hFind :
      (List.range t.size).find? fun n =>
        !t.contains (aliasCandidate base n) with
  | some i =>
      have hIndex : t.freeIndex base = i := by
        unfold freeIndex
        rw [hFind, Option.getD_some]
      rw [hIndex]
      simpa using (List.find?_range_eq_some.mp hFind).1
  | none =>
      have hIndex : t.freeIndex base = t.size := by
        unfold freeIndex
        rw [hFind, Option.getD_none]
      -- A taken last candidate would make one key too many.
      by_contra hTaken
      rw [Bool.not_eq_false] at hTaken
      have hSubset :
          (List.range (t.size + 1)).map
              (aliasCandidate base) ⊆
            t.keys := by
        intro key hKey
        rcases List.mem_map.mp hKey with ⟨n, hn, rfl⟩
        rw [List.mem_range] at hn
        rw [← OrderedMap.contains_iff]
        by_cases hLast : n = t.size
        · rw [hLast, ← hIndex]
          exact hTaken
        · exact freeIndex_least (by omega)
      have hNodup :
          ((List.range (t.size + 1)).map
            (aliasCandidate base)).Nodup :=
        List.nodup_range.map
          (aliasCandidate_injective base)
      have hLength :=
        (List.subperm_of_subset hNodup hSubset).length_le
      simp only [List.length_map, List.length_range,
        OrderedMap.keys, OrderedMap.size] at hLength
      omega

/- The alias that is chosen for a key is free. -/
theorem get?_freeAlias
    (t : ScopeTable)
    (key : String)
    (position : Position) :
    t.get? (t.freeAlias key position) = none := by
  have hFree := t.freeIndex_free (aliasKey key position)
  simpa [OrderedMap.contains, freeAlias] using hFree

/- A symbol is stored at a place that was free. -/
theorem get?_place
    (t : ScopeTable)
    (key : String)
    (position : Position) :
    t.get? ((t.outcome key position).place key) = none := by
  unfold outcome
  cases hKey : t.get? key with
  | none => exact hKey
  | some existing => exact t.get?_freeAlias key position

/- A free key is not refused. -/
theorem define_of_free
    {t : ScopeTable}
    {key : String}
    (h : t.get? key = none)
    (symbol : Symbol) :
    t.define key symbol = .ok (t.put key symbol) := by
  rw [define, h]

/-
  Declaring by two definitions never fails: the alias is free
  when the key is not, and the symbol is stored at its place.
-/
theorem declare_eq
    (t : ScopeTable)
    (key : String)
    (symbol : Symbol)
    (position : Position) :
    t.declare key symbol position =
      (t.outcome key position,
        t.store key symbol position) := by
  have hAlias :=
    define_of_free (t.get?_freeAlias key position) symbol
  unfold declare store outcome
  cases hKey : t.get? key with
  | none =>
      rw [define_of_free hKey]
      rfl
  | some existing =>
      have hRefused :
          t.define key symbol = .error existing := by
        rw [define, hKey]
      simp only [hRefused, hAlias]
      rfl

/- An alias is its key with something behind it. -/
theorem freeAlias_eq_append
    (t : ScopeTable)
    (key : String)
    (position : Position) :
    ∃ suffix,
      t.freeAlias key position = key ++ ("_" ++ suffix) := by
  unfold freeAlias
  cases t.freeIndex (aliasKey key position) with
  | zero =>
      refine
        ⟨toString position.line ++
          ("_" ++ toString position.column), ?_⟩
      simp [aliasCandidate, aliasKey, String.append_assoc]
  | succ n =>
      refine
        ⟨toString position.line ++
          ("_" ++ (toString position.column ++
            ("_" ++ toString (n + 2)))), ?_⟩
      simp [aliasCandidate, aliasKey, String.append_assoc]

end ScopeTable

end ScopeAnalysis

------------------------------------------------------------
-- The Last Character
------------------------------------------------------------

namespace ScopeAnalysis

/- A text that ends in a decimal digit. -/
def EndsInDigit (text : String) : Prop :=
  ∃ digit, text.toList.getLast? = some digit ∧ digit.isDigit

/- What is put behind a text decides how it ends. -/
theorem endsInDigit_append_toString
    (lead : String)
    (n : Nat) :
    EndsInDigit (lead ++ toString n) := by
  have hNonempty : Nat.toDigits 10 n ≠ [] :=
    Nat.toDigits_ne_nil
  refine ⟨(Nat.toDigits 10 n).getLast hNonempty, ?_, ?_⟩
  · rw [String.toList_append,
      Nat.toString_eq_ofList_toDigits, String.toList_ofList,
      List.getLast?_append,
      List.getLast?_eq_some_getLast hNonempty]
    rfl
  · exact Nat.isDigit_of_mem_toDigits (by decide) (by decide)
      (List.getLast_mem hNonempty)

/- Every alias ends in its column or in its counter. -/
theorem ScopeTable.endsInDigit_freeAlias
    (t : ScopeTable)
    (key : String)
    (position : Position) :
    EndsInDigit (t.freeAlias key position) := by
  unfold freeAlias
  cases t.freeIndex (aliasKey key position) with
  | zero => exact endsInDigit_append_toString _ _
  | succ n => exact endsInDigit_append_toString _ _

end ScopeAnalysis
