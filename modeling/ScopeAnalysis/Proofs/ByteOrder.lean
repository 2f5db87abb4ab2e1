import Mathlib.Data.String.Basic

/-
  The order of texts by their bytes.

  Key definitions include:
    * `utf8Bytes`

  Key theorems include:
    * `utf8EncodeChar_append_lt`
    * `lt_iff_utf8Bytes_lt`

  Texts are compared by code point.  In UTF-8 a character
  with a larger code point has a larger encoding, whatever
  stands behind it, so the bytes compare the same way.
-/

------------------------------------------------------------
-- Encodings Of Characters
------------------------------------------------------------

namespace ScopeAnalysis

/- The bytes of a text in UTF-8. -/
def utf8Bytes (s : String) : List UInt8 :=
  s.toUTF8.data.toList

theorem utf8Bytes_eq_flatMap
    (s : String) :
    utf8Bytes s =
      s.toList.flatMap String.utf8EncodeChar := by
  rw [utf8Bytes, String.toUTF8_eq_toByteArray,
    ← String.utf8Encode_toList, List.utf8Encode,
    List.data_toByteArray]

theorem val_lt_of_char
    (c : Char) :
    c.val.toNat < 0x110000 := by
  rcases c.valid with hLow | hHigh
  · exact Nat.lt_trans hLow (by decide)
  · exact hHigh.2

/-
  The encoding of a larger character is larger.  It differs
  from the smaller one within the bytes of both.
-/
theorem utf8EncodeChar_append_lt
    {c d : Char}
    (h : c < d)
    (xs ys : List UInt8) :
    String.utf8EncodeChar c ++ xs <
      String.utf8EncodeChar d ++ ys := by
  have hLess : c.val.toNat < d.val.toNat := h
  have hBound := val_lt_of_char d
  -- Each byte behind the first holds six bits.
  have hShift :
      ∀ n : Nat,
        n / 4096 = n / 64 / 64 ∧
          n / 262144 = n / 64 / 64 / 64 := by
    intro n
    omega
  unfold String.utf8EncodeChar
  simp only [(hShift _).1, (hShift _).2]
  split_ifs
  all_goals
    simp only [List.cons_append, List.nil_append,
      List.cons_lt_cons_iff, UInt8.lt_iff_toNat_lt,
      ← UInt8.toNat_inj, UInt8.toNat_ofNat']
    omega

end ScopeAnalysis

------------------------------------------------------------
-- Encodings Of Texts
------------------------------------------------------------

namespace ScopeAnalysis

theorem flatMap_utf8EncodeChar_lt
    {cs ds : List Char}
    (h : cs < ds) :
    cs.flatMap String.utf8EncodeChar <
      ds.flatMap String.utf8EncodeChar := by
  induction h with
  | nil =>
      rename_i d ds
      rcases List.exists_cons_of_ne_nil
          (String.utf8EncodeChar_ne_nil (c := d)) with
        ⟨byte, bytes, hEncode⟩
      rw [List.flatMap_cons, hEncode]
      exact List.nil_lt_cons _ _
  | rel hLess =>
      exact utf8EncodeChar_append_lt hLess _ _
  | cons _ ih =>
      exact List.append_left_lt ih

/- Texts and their bytes are ordered alike. -/
theorem lt_iff_utf8Bytes_lt
    {s t : String} :
    s < t ↔ utf8Bytes s < utf8Bytes t := by
  have hLess :
      ∀ {s t : String},
        s < t → utf8Bytes s < utf8Bytes t := by
    intro s t h
    rw [utf8Bytes_eq_flatMap, utf8Bytes_eq_flatMap]
    exact flatMap_utf8EncodeChar_lt h
  constructor
  · exact hLess
  · intro h
    rcases lt_trichotomy s t with hLt | rfl | hGt
    · exact hLt
    · exact (List.lt_irrefl _ h).elim
    · exact (List.lt_asymm h (hLess hGt)).elim

end ScopeAnalysis
