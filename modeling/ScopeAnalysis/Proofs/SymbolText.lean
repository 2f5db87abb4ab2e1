import ScopeAnalysis.Proofs.LackingMarks

/-
  What the written form of a symbol tells.

  Key definitions include:
    * `Text.Announces`
    * `Symbol.AgreesButLine`

  Key theorems include:
    * `Parameter.text_append_inj`
    * `Symbol.quotedPart_append_inj`
    * `Symbol.parametersPart_append_inj`
    * `Symbol.text_eq_text_iff`

  A text is read from its front, with any characters behind
  the part that is read.  A quoted value ends at the first
  quote.  The parts that may be missing start alike up to
  the third character, which is the first one of a label,
  and no two of their labels start with the same character.
  So a missing part is never taken for the next one.
-/

------------------------------------------------------------
-- Numbers And Kinds
------------------------------------------------------------

namespace ScopeAnalysis

/- A number ends at the first character that is no digit. -/
theorem Text.number_append_inj
    {m n : Nat}
    {mark : Char}
    {x y : List Char}
    (hMark : mark.isDigit = false)
    (h :
      (toString m).toList ++ mark :: x =
        (toString n).toList ++ mark :: y) :
    m = n ∧ x = y := by
  rcases (lacks_toString hMark m).append_inj
      (lacks_toString hMark n) h with
    ⟨hDigits, hRest⟩
  exact ⟨toString_nat_injective hDigits, hRest⟩

/- Every kind has a word of its own. -/
theorem SymbolKind.text_injective :
    Function.Injective text := by
  intro a b h
  cases a <;> cases b <;> first | rfl | simp [text] at h

theorem SymbolKind.lacks_quote
    (kind : SymbolKind) :
    Text.Lacks '\x27' kind.text := by
  cases kind <;> decide

end ScopeAnalysis

------------------------------------------------------------
-- Parameters
------------------------------------------------------------

namespace ScopeAnalysis

namespace Parameter

/- The places where the fields of a parameter end. -/
theorem toList_text_append
    (p : Parameter)
    (x : List Char) :
    p.text.toList ++ x =
      "\x7bindex=".toList ++
        ((toString p.index).toList ++
          ',' :: (" name='".toList ++
            (p.name.toList ++
              '\x27' :: (", type='".toList ++
                (p.type.toList ++
                  '\x27' :: ('\x7d' :: x)))))) := by
  unfold text
  simp only [String.toList_append, List.append_assoc]
  rfl

/- A parameter is read off the front of a text. -/
theorem text_append_inj
    {p q : Parameter}
    {x y : List Char}
    (hp : p.Lacks '\x27')
    (hq : q.Lacks '\x27')
    (h : p.text.toList ++ x = q.text.toList ++ y) :
    p = q ∧ x = y := by
  rw [toList_text_append, toList_text_append,
    List.append_cancel_left_eq] at h
  rcases Text.number_append_inj (by decide) h with
    ⟨hIndex, hNamed⟩
  rcases hp.name.append_inj hq.name
      (List.append_cancel_left hNamed) with
    ⟨hName, hTyped⟩
  rcases hp.type.append_inj hq.type
      (List.append_cancel_left hTyped) with
    ⟨hType, hRest⟩
  refine ⟨?_, List.tail_eq_of_cons_eq hRest⟩
  cases p
  cases q
  simp_all

end Parameter

end ScopeAnalysis

------------------------------------------------------------
-- Announcements
------------------------------------------------------------

namespace ScopeAnalysis

namespace Text

/-
  The third character of a text, if there is one, is among
  the given ones.  It is where the label of a part starts.
-/
def Announces
    (initials cs : List Char) : Prop :=
  ∀ c, cs[2]? = some c → c ∈ initials

/- Only the listed labels can start the text. -/
theorem Announces.ne
    {initials cs : List Char}
    {c : Char}
    (h : Announces initials cs)
    (hc : c ∉ initials) :
    cs[2]? ≠ some c :=
  fun hThird => hc (h c hThird)

/- A part that is written announces its own label. -/
theorem announces_part
    {initials cs : List Char}
    {initial : Char}
    (hInitial : initial ∈ initials) :
    Announces initials (',' :: ' ' :: initial :: cs) := by
  intro c hThird
  simp only [List.getElem?_cons_succ,
    List.getElem?_cons_zero, Option.some.injEq] at hThird
  exact hThird ▸ hInitial

end Text

end ScopeAnalysis

------------------------------------------------------------
-- Optional Parts
------------------------------------------------------------

namespace ScopeAnalysis

namespace Symbol

/- The characters of a quoted part with a rest behind it. -/
theorem toList_quotedPart_append
    (label value : String)
    (x : List Char) :
    (quotedPart label (some value)).toList ++ x =
      ',' :: ' ' :: (label.toList ++
        '=' :: '\x27' :: (value.toList ++ '\x27' :: x)) := by
  simp [quotedPart]

/- A quoted part or, without it, what stands behind. -/
theorem announces_quotedPart
    {label : String}
    {initial : Char}
    {letters initials x : List Char}
    (hLabel : label.toList = initial :: letters)
    (part : Option String)
    (hx : Text.Announces initials x) :
    Text.Announces (initial :: initials)
      ((quotedPart label part).toList ++ x) := by
  cases part with
  | none =>
      intro c hThird
      exact List.mem_cons_of_mem _ (hx c hThird)
  | some value =>
      rw [toList_quotedPart_append, hLabel]
      exact Text.announces_part List.mem_cons_self

/-
  A quoted part, missing or not, is read off the front when
  nothing behind it can be taken for its label.
-/
theorem quotedPart_append_inj
    {label : String}
    {initial : Char}
    {letters initials x y : List Char}
    {a b : Option String}
    (hLabel : label.toList = initial :: letters)
    (hInitial : initial ∉ initials)
    (hx : Text.Announces initials x)
    (hy : Text.Announces initials y)
    (ha : ∀ value ∈ a, Text.Lacks '\x27' value)
    (hb : ∀ value ∈ b, Text.Lacks '\x27' value)
    (h :
      (quotedPart label a).toList ++ x =
        (quotedPart label b).toList ++ y) :
    a = b ∧ x = y := by
  have hThird :
      ∀ (value : String) (z : List Char),
        ((quotedPart label (some value)).toList ++ z)[2]? =
          some initial := by
    intro value z
    rw [toList_quotedPart_append, hLabel]
    rfl
  cases a with
  | none =>
      cases b with
      | none => exact ⟨rfl, h⟩
      | some value =>
          refine (hx.ne hInitial ?_).elim
          rw [← hThird value y, ← h]
          rfl
  | some value =>
      cases b with
      | none =>
          refine (hy.ne hInitial ?_).elim
          rw [← hThird value x, h]
          rfl
      | some other =>
          rw [toList_quotedPart_append,
            toList_quotedPart_append, List.cons.injEq,
            List.cons.injEq, List.append_cancel_left_eq,
            List.cons.injEq, List.cons.injEq] at h
          obtain ⟨rfl, hRest⟩ :=
            (ha value rfl).append_inj (hb other rfl)
              h.2.2.2.2
          exact ⟨rfl, hRest⟩

end Symbol

end ScopeAnalysis

------------------------------------------------------------
-- The Parameter List
------------------------------------------------------------

namespace ScopeAnalysis

namespace Symbol

/- The characters of the parameters behind the first one. -/
def laterParameters (ps : List Parameter) : List Char :=
  ps.flatMap fun p => ',' :: ' ' :: p.text.toList

/- A list of parameters is its first one and the others. -/
theorem toList_intercalate_parameters
    (p : Parameter)
    (ps : List Parameter) :
    (String.intercalate ", "
        ((p :: ps).map Parameter.text)).toList =
      p.text.toList ++ laterParameters ps := by
  simp only [String.toList_intercalate, List.map_map]
  induction ps generalizing p with
  | nil => simp [laterParameters]
  | cons q qs ih =>
      simp only [List.map_cons] at ih
      simp only [List.map_cons, List.intercalate_cons_cons,
        ih q]
      simp [laterParameters]

/- The closing bracket shows where the list ends. -/
theorem laterParameters_append_inj
    {ps qs : List Parameter}
    {x y : List Char}
    (hps : ∀ p ∈ ps, p.Lacks '\x27')
    (hqs : ∀ q ∈ qs, q.Lacks '\x27')
    (h :
      laterParameters ps ++ ']' :: x =
        laterParameters qs ++ ']' :: y) :
    ps = qs ∧ x = y := by
  induction ps generalizing qs with
  | nil =>
      cases qs with
      | nil => exact ⟨rfl, List.tail_eq_of_cons_eq h⟩
      | cons q qs => simp [laterParameters] at h
  | cons p ps ih =>
      cases qs with
      | nil => simp [laterParameters] at h
      | cons q qs =>
          simp only [laterParameters, List.flatMap_cons,
            List.cons_append, List.append_assoc,
            List.cons.injEq, true_and] at h
          rw [← laterParameters, ← laterParameters] at h
          rcases Parameter.text_append_inj
              (hps p List.mem_cons_self)
              (hqs q List.mem_cons_self) h with
            ⟨rfl, hLater⟩
          rcases ih
              (fun r hr => hps r (List.mem_cons_of_mem _ hr))
              (fun r hr => hqs r (List.mem_cons_of_mem _ hr))
              hLater with
            ⟨rfl, hRest⟩
          exact ⟨rfl, hRest⟩

/- The characters of the list with a rest behind it. -/
theorem toList_parametersPart_append
    (p : Parameter)
    (ps : List Parameter)
    (x : List Char) :
    (parametersPart (p :: ps)).toList ++ x =
      ',' :: ' ' :: 'p' :: ("arameters=[".toList ++
        (p.text.toList ++
          (laterParameters ps ++ ']' :: x))) := by
  rw [parametersPart, String.toList_append,
    String.toList_append, toList_intercalate_parameters]
  · simp
  · simp

theorem announces_parametersPart
    {initials x : List Char}
    (ps : List Parameter)
    (hx : Text.Announces initials x) :
    Text.Announces ('p' :: initials)
      ((parametersPart ps).toList ++ x) := by
  cases ps with
  | nil =>
      intro c hThird
      exact List.mem_cons_of_mem _ (hx c hThird)
  | cons p ps =>
      rw [toList_parametersPart_append]
      exact Text.announces_part List.mem_cons_self

/- The parameter part is read off the front of a text. -/
theorem parametersPart_append_inj
    {initials x y : List Char}
    {ps qs : List Parameter}
    (hInitial : 'p' ∉ initials)
    (hx : Text.Announces initials x)
    (hy : Text.Announces initials y)
    (hps : ∀ p ∈ ps, p.Lacks '\x27')
    (hqs : ∀ q ∈ qs, q.Lacks '\x27')
    (h :
      (parametersPart ps).toList ++ x =
        (parametersPart qs).toList ++ y) :
    ps = qs ∧ x = y := by
  cases ps with
  | nil =>
      cases qs with
      | nil => exact ⟨rfl, h⟩
      | cons q qs =>
          rw [toList_parametersPart_append] at h
          exact
            (hx.ne hInitial
              (congrArg (fun cs => cs[2]?) h)).elim
  | cons p ps =>
      cases qs with
      | nil =>
          rw [toList_parametersPart_append] at h
          exact
            (hy.ne hInitial
              (congrArg (fun cs => cs[2]?) h.symm)).elim
      | cons q qs =>
          simp only [toList_parametersPart_append,
            List.cons.injEq, List.append_cancel_left_eq,
            true_and] at h
          rcases Parameter.text_append_inj
              (hps p List.mem_cons_self)
              (hqs q List.mem_cons_self) h with
            ⟨rfl, hLater⟩
          rcases laterParameters_append_inj
              (fun r hr => hps r (List.mem_cons_of_mem _ hr))
              (fun r hr => hqs r (List.mem_cons_of_mem _ hr))
              hLater with
            ⟨rfl, hRest⟩
          exact ⟨rfl, hRest⟩

end Symbol

end ScopeAnalysis

------------------------------------------------------------
-- The End Of The Text
------------------------------------------------------------

namespace ScopeAnalysis

namespace Symbol

/- The last part with the brace that closes the text. -/
theorem announces_lengthPart
    (length : Option Nat) :
    Text.Announces ['l']
      ((lengthPart length).toList ++ ['\x7d']) := by
  cases length with
  | none =>
      intro c hThird
      simp [lengthPart] at hThird
  | some n =>
      have hPart :
          (lengthPart (some n)).toList ++ ['\x7d'] =
            ',' :: ' ' :: 'l' :: ("ength=".toList ++
              (toString n).toList ++ ['\x7d']) := by
        simp [lengthPart]
      rw [hPart]
      exact Text.announces_part List.mem_cons_self

/- The array length, missing or not, is read at the end. -/
theorem lengthPart_inj
    {a b : Option Nat}
    (h :
      (lengthPart a).toList ++ ['\x7d'] =
        (lengthPart b).toList ++ ['\x7d']) :
    a = b := by
  cases a with
  | none =>
      cases b with
      | none => rfl
      | some n => simp [lengthPart] at h
  | some m =>
      cases b with
      | none => simp [lengthPart] at h
      | some n =>
          simp only [lengthPart, String.toList_append,
            List.append_assoc, List.append_cancel_left_eq]
            at h
          rw [(Text.number_append_inj (by decide) h).1]

end Symbol

end ScopeAnalysis

------------------------------------------------------------
-- Symbols
------------------------------------------------------------

namespace ScopeAnalysis

namespace Symbol

/- Symbols that differ in their first lines at most. -/
structure AgreesButLine (a b : Symbol) : Prop where
  kind : a.kind = b.kind
  name : a.name = b.name
  type : a.type = b.type
  access : a.access = b.access
  inherits : a.inherits = b.inherits
  parameters : a.parameters = b.parameters
  arrayLength : a.arrayLength = b.arrayLength

/- The end of a symbol's text, from its length on. -/
def fromLength (s : Symbol) : List Char :=
  (lengthPart s.arrayLength).toList ++ ['\x7d']

/- The end of a symbol's text, from its parameters on. -/
def fromParameters (s : Symbol) : List Char :=
  (parametersPart s.parameters).toList ++ s.fromLength

/- The end of a symbol's text, from its parent class on. -/
def fromInherits (s : Symbol) : List Char :=
  (quotedPart "inherits" s.inherits).toList ++
    s.fromParameters

/- The end of a symbol's text, from its access on. -/
def fromAccess (s : Symbol) : List Char :=
  (quotedPart "accessModifier" s.access).toList ++
    s.fromInherits

theorem announces_fromParameters
    (s : Symbol) :
    Text.Announces ['p', 'l'] s.fromParameters :=
  announces_parametersPart s.parameters
    (announces_lengthPart s.arrayLength)

theorem announces_fromInherits
    (s : Symbol) :
    Text.Announces ['i', 'p', 'l'] s.fromInherits :=
  announces_quotedPart rfl s.inherits
    s.announces_fromParameters

theorem announces_fromAccess
    (s : Symbol) :
    Text.Announces ['a', 'i', 'p', 'l'] s.fromAccess :=
  announces_quotedPart rfl s.access s.announces_fromInherits

/- The text of a symbol, with the ends of its fixed parts. -/
theorem toList_text
    (s : Symbol) :
    s.text.toList =
      "\x7bkind='".toList ++
        (s.kind.text.toList ++
          '\x27' :: (", name='".toList ++
            (s.name.toList ++
              '\x27' :: ((quotedPart "type" s.type).toList ++
                s.fromAccess)))) := by
  unfold text fromAccess fromInherits fromParameters
    fromLength
  simp only [String.toList_append, List.append_assoc]
  rfl

/-
  The text of a symbol tells all but its first line.  The
  parts are read in the order in which they are written, and
  each one leaves equal ends of the two texts behind.
-/
theorem text_eq_text_iff
    {a b : Symbol}
    (ha : a.Lacks '\x27')
    (hb : b.Lacks '\x27') :
    a.text = b.text ↔ a.AgreesButLine b := by
  constructor
  · intro h
    have hText := congrArg String.toList h
    rw [toList_text, toList_text,
      List.append_cancel_left_eq] at hText
    rcases a.kind.lacks_quote.append_inj
        b.kind.lacks_quote hText with
      ⟨hKind, hNamed⟩
    rcases ha.name.append_inj hb.name
        (List.append_cancel_left hNamed) with
      ⟨hName, hTyped⟩
    rcases quotedPart_append_inj rfl (by decide)
        a.announces_fromAccess b.announces_fromAccess
        ha.type hb.type hTyped with
      ⟨hType, hAccess⟩
    rcases quotedPart_append_inj rfl (by decide)
        a.announces_fromInherits b.announces_fromInherits
        ha.access hb.access hAccess with
      ⟨hAccess, hInherits⟩
    rcases quotedPart_append_inj rfl (by decide)
        a.announces_fromParameters b.announces_fromParameters
        ha.inherits hb.inherits hInherits with
      ⟨hInherits, hParameters⟩
    rcases parametersPart_append_inj (by decide)
        (announces_lengthPart a.arrayLength)
        (announces_lengthPart b.arrayLength)
        ha.parameters hb.parameters hParameters with
      ⟨hParameters, hLength⟩
    exact
      { kind := SymbolKind.text_injective hKind
        name := hName
        type := hType
        access := hAccess
        inherits := hInherits
        parameters := hParameters
        arrayLength := lengthPart_inj hLength }
  · intro h
    unfold text
    rw [h.kind, h.name, h.type, h.access, h.inherits,
      h.parameters, h.arrayLength]

/-
  A field that has a type and one whose name looks like a
  typed name are told apart.
-/
theorem text_ne_of_marks_in_name :
    let typed : Symbol :=
      { bare .field "a" with type := some "int" }
    let marked : Symbol := bare .field "a, type=int\x7d"
    typed.text ≠ marked.text := by
  intro typed marked h
  have hTyped : typed.Lacks '\x27' :=
    { name := by decide
      type := by simp [typed, Text.Lacks]
      access := by simp [typed, bare]
      inherits := by simp [typed, bare]
      parameters := by simp [typed, bare] }
  have hMarked : marked.Lacks '\x27' :=
    { name := by decide
      type := by simp [marked, bare]
      access := by simp [marked, bare]
      inherits := by simp [marked, bare]
      parameters := by simp [marked, bare] }
  have hAgrees := (text_eq_text_iff hTyped hMarked).mp h
  exact absurd hAgrees.type (by simp [typed, marked, bare])

end Symbol

end ScopeAnalysis
