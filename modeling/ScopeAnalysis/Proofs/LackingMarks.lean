import ScopeAnalysis.Proofs.ScopeNames
import ScopeAnalysis.Symbol

/-
  Texts that lack a character.

  Key definitions include:
    * `Text.Lacks`
    * `Parameter.Lacks`
    * `Symbol.Lacks`

  Key theorems include:
    * `Text.lacks_append`
    * `Text.Lacks.append_inj`
    * `Text.lacks_toString`
    * `Text.lacks_intercalate`

  A character that no part of a text contains can mark where
  the text ends, as quotes do around a value and line feeds
  behind a line.
-/

------------------------------------------------------------
-- Texts
------------------------------------------------------------

namespace ScopeAnalysis

namespace Text

/- A text without a character. -/
def Lacks
    (mark : Char)
    (text : String) : Prop :=
  mark ∉ text.toList

instance
    (mark : Char)
    (text : String) :
    Decidable (Lacks mark text) := by
  unfold Lacks
  infer_instance

variable {mark : Char}

@[simp] theorem lacks_append
    {a b : String} :
    Lacks mark (a ++ b) ↔ Lacks mark a ∧ Lacks mark b := by
  simp [Lacks]

/- A text without a mark ends at the first mark behind it. -/
theorem Lacks.append_inj
    {a b : String}
    {x y : List Char}
    (ha : Lacks mark a)
    (hb : Lacks mark b)
    (h : a.toList ++ mark :: x = b.toList ++ mark :: y) :
    a = b ∧ x = y := by
  rcases (append_mark_inj ha hb).mp h with ⟨hText, hRest⟩
  exact ⟨String.toList_inj.mp hText, hRest⟩

/- A written number lacks all but digits. -/
theorem lacks_toString
    (hMark : mark.isDigit = false)
    (n : Nat) :
    Lacks mark (toString n) := by
  intro hMem
  have hDigit := isDigit_of_mem_toString hMem
  rw [hMark] at hDigit
  exact Bool.noConfusion hDigit

/- Joining texts that lack a character does not bring it. -/
theorem lacks_intercalate
    {separator : String}
    {pieces : List String}
    (hSeparator : Lacks mark separator)
    (hPieces : ∀ piece ∈ pieces, Lacks mark piece) :
    Lacks mark (String.intercalate separator pieces) := by
  induction pieces with
  | nil => simp [Lacks]
  | cons piece pieces ih =>
      rcases List.forall_mem_cons.mp hPieces with
        ⟨hFirst, hOthers⟩
      cases pieces with
      | nil => simpa using hFirst
      | cons next others =>
          rw [String.intercalate_cons_cons, lacks_append,
            lacks_append]
          exact ⟨⟨hFirst, hSeparator⟩, ih hOthers⟩

end Text

end ScopeAnalysis

------------------------------------------------------------
-- Symbols
------------------------------------------------------------

namespace ScopeAnalysis

/- A parameter without a character in its texts. -/
structure Parameter.Lacks
    (mark : Char)
    (p : Parameter) : Prop where
  name : Text.Lacks mark p.name
  type : Text.Lacks mark p.type

/- A symbol without a character in its texts. -/
structure Symbol.Lacks
    (mark : Char)
    (s : Symbol) : Prop where
  name : Text.Lacks mark s.name
  type : ∀ type ∈ s.type, Text.Lacks mark type
  access : ∀ access ∈ s.access, Text.Lacks mark access
  inherits : ∀ parent ∈ s.inherits, Text.Lacks mark parent
  parameters : ∀ p ∈ s.parameters, p.Lacks mark

end ScopeAnalysis
