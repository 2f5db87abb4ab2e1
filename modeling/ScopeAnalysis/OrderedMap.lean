/-
  Finite maps that remember the order of arrival.

  Key definitions include:
    * `OrderedMap`
    * `OrderedMap.get?`
    * `OrderedMap.put`
    * `OrderedMap.keys`

  Key theorems include:
    * `OrderedMap.keys_put`
    * `OrderedMap.get?_put_self`
    * `OrderedMap.get?_put_of_ne`
    * `OrderedMap.get?_eq_none_iff`

  A key keeps the place at which it first arrived; putting a
  value at a known key replaces the value in place.  No key
  occurs twice, and the type says so.
-/

------------------------------------------------------------
-- Entries
------------------------------------------------------------

namespace ScopeAnalysis

namespace Entries

variable {κ α : Type} [DecidableEq κ]

/- Replace the value of a key in place, or add it last. -/
def put
    (k : κ)
    (v : α) : List (κ × α) → List (κ × α)
| [] => [(k, v)]
| e :: es =>
    if e.1 = k then
      (k, v) :: es
    else
      e :: put k v es

/- Only a new key changes the list of keys. -/
theorem map_fst_put
    (k : κ)
    (v : α)
    (es : List (κ × α)) :
    (put k v es).map Prod.fst =
      if k ∈ es.map Prod.fst then
        es.map Prod.fst
      else
        es.map Prod.fst ++ [k] := by
  induction es with
  | nil => simp [put]
  | cons e es ih =>
      by_cases h : e.1 = k
      · simp [put, h]
      · have hk : ¬ k = e.1 := fun hEq => h hEq.symm
        rw [put, if_neg h, List.map_cons, ih]
        simp only [List.map_cons, List.mem_cons, hk,
          false_or]
        split <;> simp

/- The key that was put has the value that was put. -/
theorem lookup_put_self
    (k : κ)
    (v : α)
    (es : List (κ × α)) :
    (put k v es).lookup k = some v := by
  induction es with
  | nil => simp [put]
  | cons e es ih =>
      by_cases h : e.1 = k
      · simp [put, h]
      · have hk : (k == e.1) = false := by
          simp [beq_eq_false_iff_ne, Ne.symm h]
        rw [put, if_neg h, List.lookup_cons, hk]
        exact ih

/- All other keys keep their values. -/
theorem lookup_put_of_ne
    {j k : κ}
    (v : α)
    (es : List (κ × α))
    (h : j ≠ k) :
    (put k v es).lookup j = es.lookup j := by
  have hjk : (j == k) = false := by simp [h]
  induction es with
  | nil => simp [put, List.lookup_cons, hjk]
  | cons e es ih =>
      by_cases he : e.1 = k
      · rw [put, if_pos he, List.lookup_cons,
          List.lookup_cons, hjk, he, hjk]
      · rw [put, if_neg he, List.lookup_cons,
          List.lookup_cons, ih]

/- Where no key occurs twice, each entry is found. -/
theorem lookup_of_mem
    {es : List (κ × α)}
    (hNodup : (es.map Prod.fst).Nodup)
    {e : κ × α}
    (he : e ∈ es) :
    es.lookup e.1 = some e.2 := by
  induction es with
  | nil => cases he
  | cons first es ih =>
      rw [List.map_cons, List.nodup_cons] at hNodup
      rcases List.mem_cons.mp he with rfl | hRest
      · rw [List.lookup_cons, beq_self_eq_true]
      · have hne : e.1 ≠ first.1 := fun hEq =>
          hNodup.1 (hEq ▸ List.mem_map_of_mem hRest)
        have hKey : (e.1 == first.1) = false := by
          simp [hne]
        rw [List.lookup_cons, hKey]
        exact ih hNodup.2 hRest

end Entries

end ScopeAnalysis

------------------------------------------------------------
-- Ordered Maps
------------------------------------------------------------

namespace ScopeAnalysis

/- Entries in order of arrival, each key once. -/
structure OrderedMap (κ α : Type) where
  entries : List (κ × α)
  nodup_keys : (entries.map Prod.fst).Nodup

namespace OrderedMap

variable {κ α : Type}

/- The map without entries. -/
def empty : OrderedMap κ α :=
  ⟨[], List.nodup_nil⟩

/- The map with one entry. -/
def singleton
    (k : κ)
    (v : α) : OrderedMap κ α :=
  ⟨[(k, v)], by simp⟩

/- The keys in order of arrival. -/
def keys (m : OrderedMap κ α) : List κ :=
  m.entries.map Prod.fst

/- The number of entries. -/
def size (m : OrderedMap κ α) : Nat :=
  m.entries.length

variable [DecidableEq κ]

/- The value of a key. -/
def get?
    (m : OrderedMap κ α)
    (k : κ) : Option α :=
  m.entries.lookup k

/- The key has a value. -/
def contains
    (m : OrderedMap κ α)
    (k : κ) : Bool :=
  (m.get? k).isSome

/- Give a key a value; a new key goes to the end. -/
def put
    (m : OrderedMap κ α)
    (k : κ)
    (v : α) : OrderedMap κ α where
  entries := Entries.put k v m.entries
  nodup_keys := by
    rw [Entries.map_fst_put]
    split
    · exact m.nodup_keys
    · rename_i hNew
      refine List.nodup_append.mpr
        ⟨m.nodup_keys, by simp, ?_⟩
      intro j hj k' hk' hEq
      rw [List.mem_singleton] at hk'
      exact hNew (hk' ▸ hEq ▸ hj)

/- Only a new key changes the keys, and it comes last. -/
theorem keys_put
    (m : OrderedMap κ α)
    (k : κ)
    (v : α) :
    (m.put k v).keys =
      if k ∈ m.keys then m.keys else m.keys ++ [k] :=
  Entries.map_fst_put k v m.entries

/- The key that was put has the value that was put. -/
theorem get?_put_self
    (m : OrderedMap κ α)
    (k : κ)
    (v : α) :
    (m.put k v).get? k = some v :=
  Entries.lookup_put_self k v m.entries

/- All other keys keep their values. -/
theorem get?_put_of_ne
    (m : OrderedMap κ α)
    {j k : κ}
    (v : α)
    (h : j ≠ k) :
    (m.put k v).get? j = m.get? j :=
  Entries.lookup_put_of_ne v m.entries h

/- A key without a value is not among the keys. -/
theorem get?_eq_none_iff
    (m : OrderedMap κ α)
    (k : κ) :
    m.get? k = none ↔ k ∉ m.keys := by
  unfold get? keys
  rw [List.lookup_eq_none_iff]
  simp only [bne_iff_ne, ne_eq, List.mem_map, not_exists,
    not_and]
  constructor
  · intro h e he hEq
    exact h e he hEq.symm
  · intro h e he hEq
    exact h e he hEq.symm

end OrderedMap

end ScopeAnalysis
