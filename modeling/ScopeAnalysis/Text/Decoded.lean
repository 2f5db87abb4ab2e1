/-
  Reading bytes that need not be a text.

  Key definitions include:
    * `Text.tails`
    * `Text.begun`
    * `Text.decodeFrom`
    * `Text.ofBytes`

  Key theorems include:
    * `Text.decodeFrom_flatMap`
    * `Text.ofBytes_toUTF8`

  Bytes are read as UTF-8.  Where no character can be read,
  the mark U+FFFD stands for the longest beginning of one
  that is there, or else for a single byte.
-/

------------------------------------------------------------
-- Reading
------------------------------------------------------------

namespace ScopeAnalysis

namespace Text

/-
  The least and the greatest value of each byte that follows
  the first byte of a character.  Only the second byte is
  ever bound more closely: overlong forms, surrogates and
  numbers beyond the last character are no characters.
-/
def tails (first : UInt8) : List (UInt8 × UInt8) :=
  if first < 0xC2 then
    []
  else if first < 0xE0 then
    [(0x80, 0xBF)]
  else if first < 0xF0 then
    [ (if first = 0xE0 then 0xA0 else 0x80,
        if first = 0xED then 0x9F else 0xBF),
      (0x80, 0xBF) ]
  else if first < 0xF5 then
    [ (if first = 0xF0 then 0x90 else 0x80,
        if first = 0xF4 then 0x8F else 0xBF),
      (0x80, 0xBF),
      (0x80, 0xBF) ]
  else
    []

/- How many bytes go on with what a first byte has begun. -/
def begun
    (first : UInt8)
    (rest : List UInt8) : Nat :=
  ((rest.zip (tails first)).takeWhile fun e =>
    e.2.1 ≤ e.1 && e.1 ≤ e.2.2).length

/-
  The characters of bytes, behind a number of bytes that are
  passed over.  No character has more than four bytes.
-/
def decodeFrom : Nat → List UInt8 → List Char
| _, [] => []
| skip + 1, _ :: rest => decodeFrom skip rest
| 0, first :: rest =>
    match
        (first :: rest.take 3).toByteArray.utf8DecodeChar?
          0 with
    | some c => c :: decodeFrom (c.utf8Size - 1) rest
    | none => '\uFFFD' :: decodeFrom (begun first rest) rest

/- The text that bytes show. -/
def ofBytes (bytes : ByteArray) : String :=
  String.ofList (decodeFrom 0 bytes.data.toList)

end Text

end ScopeAnalysis

------------------------------------------------------------
-- Reading Back
------------------------------------------------------------

namespace ScopeAnalysis

namespace Text

theorem decodeFrom_append
    (front rest : List UInt8) :
    decodeFrom front.length (front ++ rest) =
      decodeFrom 0 rest := by
  induction front with
  | nil => rfl
  | cons byte front ih =>
      rw [List.length_cons, List.cons_append, decodeFrom]
      exact ih

/- The encoding of a character is read as that character. -/
theorem decodeFrom_utf8EncodeChar
    (c : Char)
    (rest : List UInt8) :
    decodeFrom 0 (String.utf8EncodeChar c ++ rest) =
      c :: decodeFrom 0 rest := by
  have hLength := String.length_utf8EncodeChar c
  have hFour := c.utf8Size_le_four
  cases hEncode : String.utf8EncodeChar c with
  | nil => exact absurd hEncode String.utf8EncodeChar_ne_nil
  | cons first bytes =>
      rw [hEncode, List.length_cons] at hLength
      have hFront :
          first :: (bytes ++ rest).take 3 =
            String.utf8EncodeChar c ++
              rest.take (3 - bytes.length) := by
        rw [hEncode, List.take_append,
          List.take_of_length_le (by omega)]
        rfl
      have hSize : c.utf8Size - 1 = bytes.length := by
        omega
      rw [List.cons_append, decodeFrom, hFront,
        List.toByteArray_append,
        ByteArray.utf8DecodeChar?_utf8EncodeChar_append]
      dsimp only
      rw [hSize, decodeFrom_append]

/- So are the encodings of any characters in a row. -/
theorem decodeFrom_flatMap
    (cs : List Char) :
    decodeFrom 0 (cs.flatMap String.utf8EncodeChar) = cs := by
  induction cs with
  | nil => rfl
  | cons c cs ih =>
      rw [List.flatMap_cons, decodeFrom_utf8EncodeChar, ih]

/- The bytes of a text show that text. -/
theorem ofBytes_toUTF8
    (s : String) :
    ofBytes s.toUTF8 = s := by
  have hBytes :
      s.toUTF8.data.toList =
        s.toList.flatMap String.utf8EncodeChar := by
    rw [String.toUTF8_eq_toByteArray,
      ← String.utf8Encode_toList, List.utf8Encode,
      List.data_toByteArray]
  rw [ofBytes, hBytes, decodeFrom_flatMap,
    String.ofList_toList]

/- A broken character shows as one mark, a stray byte too. -/
example :
    decodeFrom 0 [0x61, 0xE2, 0x82, 0x62, 0xE0, 0x80] =
      ['a', '\uFFFD', 'b', '\uFFFD', '\uFFFD'] := by
  decide +kernel

end Text

end ScopeAnalysis
