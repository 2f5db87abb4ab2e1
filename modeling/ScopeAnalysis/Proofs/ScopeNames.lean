import ScopeAnalysis.Proofs.Alias
import ScopeAnalysis.ScopeId

/-
  What the name of a scope is made from.

  Key definitions include:
    * `ScopeName`
    * `ScopeName.id`

  Key theorems include:
    * `ScopeId.ofBlock_inj`
    * `ScopeName.id_injective`

  Names of scopes of different constructs begin with
  different characters, and numbers have no underscore.  A
  name therefore shows what it was made from, whatever the
  names of classes and methods look like.
-/

------------------------------------------------------------
-- Names Of Blocks
------------------------------------------------------------

namespace ScopeAnalysis

/- A written number has digits only. -/
theorem isDigit_of_mem_toString
    {n : Nat}
    {c : Char}
    (hc : c ∈ (toString n).toList) :
    c.isDigit := by
  rw [Nat.toString_eq_ofList_toDigits,
    String.toList_ofList] at hc
  exact Nat.isDigit_of_mem_toDigits (by decide) (by decide) hc

/- The name of a block tells its lines. -/
theorem ScopeId.ofBlock_inj
    {word : String}
    {startLine endLine startLine' endLine' : Nat} :
    ofBlock word startLine endLine =
        ofBlock word startLine' endLine' ↔
      startLine = startLine' ∧ endLine = endLine' := by
  have hPlain :
      ∀ n : Nat, '_' ∉ (toString n).toList := by
    intro n hMark
    exact absurd (isDigit_of_mem_toString hMark) (by decide)
  constructor
  · intro h
    have hList :=
      congrArg (fun id => id.text.toList) h
    simp only [ofBlock, String.append_assoc,
      String.toList_append, List.append_cancel_left_eq]
      at hList
    rcases (Text.append_mark_inj (hPlain _) (hPlain _)).mp
        hList with
      ⟨hStart, hEnd⟩
    exact
      ⟨toString_nat_injective (String.toList_inj.mp hStart),
        toString_nat_injective (String.toList_inj.mp hEnd)⟩
  · rintro ⟨rfl, rfl⟩
    rfl

end ScopeAnalysis

------------------------------------------------------------
-- Names Of Scopes
------------------------------------------------------------

namespace ScopeAnalysis

/- What a scope is named after. -/
inductive ScopeName where
| global
| classBody (name : String)
| methodBody (signature : String)
| ifBlock (startLine endLine : Nat)
| elseBlock (startLine endLine : Nat)
| whileBlock (startLine endLine : Nat)
deriving DecidableEq

namespace ScopeName

/- The name that is made. -/
def id : ScopeName → ScopeId
| .global => .global
| .classBody name => .ofClass name
| .methodBody signature => .ofMethod signature
| .ifBlock startLine endLine => .ofIf startLine endLine
| .elseBlock startLine endLine =>
    .ofElse startLine endLine
| .whileBlock startLine endLine =>
    .ofWhile startLine endLine

/- The first character of the names of a construct. -/
def initial : ScopeName → Char
| .global => 'g'
| .classBody _ => 'c'
| .methodBody _ => 'm'
| .ifBlock _ _ => 'i'
| .elseBlock _ _ => 'e'
| .whileBlock _ _ => 'w'

theorem head?_id
    (n : ScopeName) :
    n.id.text.toList.head? = some n.initial := by
  cases n with
  | global => rfl
  | classBody name => simp [id, initial, ScopeId.ofClass]
  | methodBody signature =>
      simp [id, initial, ScopeId.ofMethod]
  | ifBlock startLine endLine =>
      simp [id, initial, ScopeId.ofIf, ScopeId.ofBlock]
  | elseBlock startLine endLine =>
      simp [id, initial, ScopeId.ofElse, ScopeId.ofBlock]
  | whileBlock startLine endLine =>
      simp [id, initial, ScopeId.ofWhile, ScopeId.ofBlock]

/- A scope's name shows what it was made from. -/
theorem id_injective :
    Function.Injective id := by
  intro a b h
  have hInitial : a.initial = b.initial := by
    have hHead := a.head?_id
    rw [h, b.head?_id, Option.some.injEq] at hHead
    exact hHead.symm
  cases a with
  | global =>
      cases b with
      | global => rfl
      | _ => simp [initial] at hInitial
  | classBody name =>
      cases b with
      | classBody other =>
          rw [id, id, ScopeId.ofClass, ScopeId.ofClass,
            ScopeId.mk.injEq, String.append_right_inj] at h
          rw [h]
      | _ => simp [initial] at hInitial
  | methodBody signature =>
      cases b with
      | methodBody other =>
          rw [id, id, ScopeId.ofMethod, ScopeId.ofMethod,
            ScopeId.mk.injEq, String.append_right_inj] at h
          rw [h]
      | _ => simp [initial] at hInitial
  | ifBlock startLine endLine =>
      cases b with
      | ifBlock startLine' endLine' =>
          obtain ⟨rfl, rfl⟩ := ScopeId.ofBlock_inj.mp h
          rfl
      | _ => simp [initial] at hInitial
  | elseBlock startLine endLine =>
      cases b with
      | elseBlock startLine' endLine' =>
          obtain ⟨rfl, rfl⟩ := ScopeId.ofBlock_inj.mp h
          rfl
      | _ => simp [initial] at hInitial
  | whileBlock startLine endLine =>
      cases b with
      | whileBlock startLine' endLine' =>
          obtain ⟨rfl, rfl⟩ := ScopeId.ofBlock_inj.mp h
          rfl
      | _ => simp [initial] at hInitial

end ScopeName

end ScopeAnalysis
