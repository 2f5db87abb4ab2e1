import ScopeAnalysis.Expr
import ScopeAnalysis.Proofs.ByteSlices
import ScopeAnalysis.Proofs.Padding

/-
  Reading calls back from their texts.

  Key definitions include:
    * `SpellsCall`
    * `ReadableCall`
    * `Expr.targetAt?`
    * `Expr.argumentsAt?`
    * `Expr.ReadsCalls`

  Key theorems include:
    * `Expr.callInterior?_eq_some_iff`
    * `Expr.callInterior?_eq_none_iff`
    * `SpellsCall.callTarget?_eq`
    * `SpellsCall.callArguments_eq`
    * `Expr.argumentsAt?_eq_elim`
    * `Expr.readsCalls`

  A call may be written with blanks around its callee and its
  arguments.  The callee is read from the whole text and the
  arguments from the trimmed one, but blanks are neither
  parentheses nor commas, so they make no difference.  The
  same is read when the text is sliced at places in bytes.
-/

------------------------------------------------------------
-- Interiors
------------------------------------------------------------

namespace ScopeAnalysis

namespace Expr

open Text (Padded)

variable {cs interior : List Char}

/- The first parentheses of either kind enclose it. -/
theorem callInterior?_eq_some_iff :
    callInterior? cs = some interior ↔
      ∃ before behind,
        cs = before ++ '(' :: (interior ++ ')' :: behind) ∧
          '(' ∉ before ∧ ')' ∉ before ∧ ')' ∉ interior := by
  unfold callInterior?
  constructor
  · intro h
    split at h
    · cases h
    · rename_i before rest hOpen
      split at h
      · cases h
      · rename_i hBefore
        rcases Option.map_eq_some_iff.mp h with
          ⟨⟨found, behind⟩, hClose, rfl⟩
        rcases Text.cut?_eq_some_iff.mp hOpen with
          ⟨rfl, hFirst⟩
        rcases Text.cut?_eq_some_iff.mp hClose with
          ⟨rfl, hInterior⟩
        exact ⟨before, behind, rfl, hFirst, hBefore, hInterior⟩
  · rintro ⟨before, behind, rfl, hFirst, hBefore, hInterior⟩
    have hOpen :
        Text.cut? '('
            (before ++ '(' :: (interior ++ ')' :: behind)) =
          some (before, interior ++ ')' :: behind) :=
      Text.cut?_eq_some_iff.mpr ⟨rfl, hFirst⟩
    have hClose :
        Text.cut? ')' (interior ++ ')' :: behind) =
          some (interior, behind) :=
      Text.cut?_eq_some_iff.mpr ⟨rfl, hInterior⟩
    rw [hOpen]
    dsimp only
    rw [if_neg hBefore, hClose, Option.map_some]

/-
  A text without an interior lacks one of the parentheses or
  has them the wrong way round.
-/
theorem callInterior?_eq_none_iff :
    callInterior? cs = none ↔
      '(' ∉ cs ∨ ')' ∉ cs ∨
        ∃ before behind,
          cs = before ++ ')' :: behind ∧
            ')' ∉ before ∧ '(' ∉ before := by
  constructor
  · intro h
    by_contra hNot
    rw [not_or, not_or, not_not, not_not] at hNot
    rcases hNot with ⟨hOpen, hClose, hOrder⟩
    rcases List.eq_append_cons_of_mem hOpen with
      ⟨before, rest, rfl, hFirst⟩
    by_cases hBefore : ')' ∈ before
    · rcases List.eq_append_cons_of_mem hBefore with
        ⟨front, between, rfl, hFront⟩
      rw [List.mem_append, not_or] at hFirst
      exact
        hOrder
          ⟨front, between ++ '(' :: rest, by simp, hFront,
            hFirst.1⟩
    · have hBehind : ')' ∈ rest := by
        simpa [hBefore] using hClose
      rcases List.eq_append_cons_of_mem hBehind with
        ⟨interior, behind, rfl, hInterior⟩
      have hSome :=
        callInterior?_eq_some_iff.mpr
          ⟨before, behind, rfl, hFirst, hBefore, hInterior⟩
      rw [h] at hSome
      cases hSome
  · intro h
    cases hCall : callInterior? cs with
    | none => rfl
    | some interior =>
        rcases callInterior?_eq_some_iff.mp hCall with
          ⟨before, behind, rfl, hFirst, hBefore, hInterior⟩
        rcases h with hOpen | hClose |
          ⟨front, rest, hSplit, hFront, hNoOpen⟩
        · simp at hOpen
        · simp at hClose
        · -- In front of the first `)` there is a `(`.
          have hBoth :
              (before ++ '(' :: interior) ++ ')' :: behind =
                front ++ ')' :: rest := by
            rw [← hSplit]
            simp
          rw [Text.append_mark_inj
            (by simp [hBefore, hInterior]) hFront] at hBoth
          rw [← hBoth.1] at hNoOpen
          simp at hNoOpen

/- Blanks around a text are not looked at. -/
theorem callInterior?_of_padded
    {core : List Char}
    (h : Padded core cs) :
    callInterior? cs = callInterior? core := by
  have hOpen : '(' ∈ cs ↔ '(' ∈ core := h.mem_iff (by decide)
  have hClose : ')' ∈ cs ↔ ')' ∈ core := h.mem_iff (by decide)
  rcases h with ⟨front, back, rfl, hFront, _⟩
  have hNoOpen : '(' ∉ front :=
    Text.not_mem_blanks (by decide) hFront
  have hNoClose : ')' ∉ front :=
    Text.not_mem_blanks (by decide) hFront
  cases hCore : callInterior? core with
  | none =>
      rw [callInterior?_eq_none_iff] at hCore ⊢
      rw [hOpen, hClose]
      refine hCore.imp_right (Or.imp_right ?_)
      rintro ⟨before, behind, rfl, hBefore, hFirst⟩
      exact
        ⟨front ++ before, behind ++ back, by simp,
          by simp [hNoClose, hBefore],
          by simp [hNoOpen, hFirst]⟩
  | some interior =>
      rw [callInterior?_eq_some_iff] at hCore ⊢
      rcases hCore with
        ⟨before, behind, rfl, hFirst, hBefore, hInterior⟩
      exact
        ⟨front ++ before, behind ++ back, by simp,
          by simp [hNoOpen, hFirst],
          by simp [hNoClose, hBefore], hInterior⟩

end Expr

end ScopeAnalysis

------------------------------------------------------------
-- Spelled Calls
------------------------------------------------------------

namespace ScopeAnalysis

open Text (Padded)

/- A text without the blanks around it. -/
def Text.trimmed (s : String) : String :=
  String.ofList (trim s.toList)

/-
  A text that spells a call: the callee, the arguments with
  commas between them and parentheses around them, and any
  text behind.  Blanks may stand around the whole, around the
  callee, around every argument and in empty parentheses.
-/
inductive SpellsCall
    (callee : String)
    (args : List String)
    (text : String) : Prop where
| intro
    {head interior rest : List Char}
    {pieces : List (List Char)}
    (hHead : Padded callee.toList head)
    (hPieces :
      List.Forall₂ Padded (args.map String.toList) pieces)
    (hInterior : Padded ([','].intercalate pieces) interior)
    (hText :
      Padded (head ++ '(' :: (interior ++ ')' :: rest))
        text.toList)

/- A callee and arguments whose marks are told apart. -/
structure ReadableCall
    (callee : String)
    (args : List String) : Prop where
  no_open : '(' ∉ callee.toList
  no_close : ')' ∉ callee.toList
  args :
    ∀ arg ∈ args,
      (∃ c ∈ arg.toList, Text.isBlank c = false) ∧
        ',' ∉ arg.toList ∧ ')' ∉ arg.toList

namespace Expr

/- The arguments that stand in an interior. -/
def argumentsIn (interior : List Char) : List String :=
  if Text.trim interior = [] then
    []
  else
    ((Text.trim interior).splitOn ',').map
      fun piece => String.ofList (Text.trim piece)

/- The arguments are read from the interior, if any. -/
theorem callArguments_eq_elim
    (e : Expr) :
    e.callArguments =
      (callInterior? e.text.toList).elim [] argumentsIn := by
  rw [callArguments]
  cases callInterior? e.text.toList with
  | none => rfl
  | some interior => rfl

end Expr

section Spelled

variable {callee : String}
variable {args : List String}
variable {pieces : List (List Char)}

/- A mark that no argument has is in no piece. -/
theorem not_mem_pieces
    {mark : Char}
    (hMark : Text.isBlank mark = false)
    (hArgs : ∀ arg ∈ args, mark ∉ arg.toList)
    (hPieces :
      List.Forall₂ Padded (args.map String.toList) pieces) :
    ∀ piece ∈ pieces, mark ∉ piece := by
  intro piece hPiece hMem
  rcases (Text.exists_mem_padded_iff hMark hPieces).mp
      ⟨piece, hPiece, hMem⟩ with
    ⟨core, hCore, hMark⟩
  rcases List.mem_map.mp hCore with ⟨arg, hArg, rfl⟩
  exact hArgs arg hArg hMark

/- Arguments that are not blank do not look like none. -/
theorem ReadableCall.trim_ne_nil
    (h : ReadableCall callee args)
    (hPieces :
      List.Forall₂ Padded (args.map String.toList) pieces)
    (hSome : args ≠ []) :
    Text.trim ([','].intercalate pieces) ≠ [] := by
  rcases List.exists_mem_of_ne_nil args hSome with
    ⟨arg, hArg⟩
  rcases h.args arg hArg with ⟨⟨c, hc, hBlank⟩, hNoComma, _⟩
  have hOther : c ≠ ',' := by
    rintro rfl
    exact hNoComma hc
  have hMem : c ∈ [','].intercalate pieces := by
    rw [Text.mem_intercalate_iff hOther,
      Text.exists_mem_padded_iff hBlank hPieces]
    exact ⟨_, List.mem_map_of_mem hArg, hc⟩
  rw [ne_eq, Text.trim_eq_nil_iff]
  intro hAll
  simp [hAll c hMem] at hBlank

/- Readable arguments are read back from an interior. -/
theorem ReadableCall.argumentsIn_eq
    (h : ReadableCall callee args)
    {interior : List Char}
    (hPieces :
      List.Forall₂ Padded (args.map String.toList) pieces)
    (hInterior :
      Padded ([','].intercalate pieces) interior) :
    Expr.argumentsIn interior = args.map Text.trimmed := by
  have hComma : Text.isBlank ',' = false := by decide
  have hTrim := Text.trim_of_padded hInterior
  rw [Expr.argumentsIn, hTrim]
  by_cases hNone : args = []
  · -- Empty parentheses have no arguments.
    rw [hNone] at hPieces
    rw [List.forall₂_nil_left_iff.mp hPieces, hNone]
    rfl
  · have hPiecesNe : pieces ≠ [] := by
      rintro rfl
      exact hNone (by simpa using hPieces)
    have hSplit :
        ([','].intercalate pieces).splitOn ',' = pieces :=
      List.splitOn_intercalate ','
        (not_mem_pieces hComma
          (fun arg hArg => (h.args arg hArg).2.1) hPieces)
        hPiecesNe
    have hTrimmed :=
      calc
        ((Text.trim ([','].intercalate pieces)).splitOn
              ',').map Text.trim
            = (([','].intercalate pieces).splitOn
                ',').map Text.trim :=
              (Text.map_trim_of_padded
                (Text.padded_splitOn hComma
                  (Text.padded_trim _))).symm
        _ = pieces.map Text.trim := by rw [hSplit]
        _ = (args.map String.toList).map Text.trim :=
              Text.map_trim_of_padded hPieces
    have hStrings :=
      congrArg (List.map String.ofList) hTrimmed
    rw [List.map_map, List.map_map, List.map_map] at hStrings
    rw [if_neg (h.trim_ne_nil hPieces hNone)]
    exact hStrings

/- The callee is read back. -/
theorem SpellsCall.callTarget?_eq
    {e : Expr}
    (h : SpellsCall callee args e.text)
    (hReadable : ReadableCall callee args) :
    e.callTarget? = some (Text.trimmed callee) := by
  rcases h with
    @⟨head, interior, rest, _, hHead, _, _, hText⟩
  rcases hText with ⟨front, back, hText, hFront, _⟩
  have hNoOpen : '(' ∉ front ++ head := by
    rw [List.mem_append, not_or, hHead.mem_iff (by decide)]
    exact
      ⟨Text.not_mem_blanks (by decide) hFront,
        hReadable.no_open⟩
  have hCut :
      Text.cut? '(' e.text.toList =
        some
          (front ++ head, interior ++ ')' :: rest ++ back) :=
    Text.cut?_eq_some_iff.mpr ⟨by simp [hText], hNoOpen⟩
  have hPadded : Padded head (front ++ head) :=
    ⟨front, [], by simp, hFront, by simp⟩
  rw [Expr.callTarget?, hCut, Option.map_some,
    Text.trim_of_padded hPadded, Text.trim_of_padded hHead,
    Text.trimmed]

/- The arguments are read back. -/
theorem SpellsCall.callArguments_eq
    {e : Expr}
    (h : SpellsCall callee args e.text)
    (hReadable : ReadableCall callee args) :
    e.callArguments = args.map Text.trimmed := by
  rcases h with
    @⟨head, interior, rest, pieces, hHead, hPieces,
      hInterior, hText⟩
  have hNoClose : ')' ∉ interior := by
    rw [hInterior.mem_iff (by decide),
      Text.mem_intercalate_iff (by decide)]
    rintro ⟨piece, hPiece, hMem⟩
    exact
      not_mem_pieces (by decide)
        (fun arg hArg => (hReadable.args arg hArg).2.2)
        hPieces piece hPiece hMem
  have hCall :
      Expr.callInterior? e.text.toList = some interior := by
    rw [Expr.callInterior?_of_padded hText,
      Expr.callInterior?_eq_some_iff]
    refine ⟨head, rest, rfl, ?_, ?_, hNoClose⟩
    · rw [hHead.mem_iff (by decide)]
      exact hReadable.no_open
    · rw [hHead.mem_iff (by decide)]
      exact hReadable.no_close
  rw [e.callArguments_eq_elim, hCall]
  exact hReadable.argumentsIn_eq hPieces hInterior

end Spelled

end ScopeAnalysis

------------------------------------------------------------
-- Reading By Places
------------------------------------------------------------

namespace ScopeAnalysis

namespace Expr

/-
  The callee as it is read by slicing.  The outer `none`
  stands for a slice that does not exist.
-/
def targetAt?
    (e : Expr) : Option (Option String) :=
  match Text.find? '(' e.text.toList with
  | none => some none
  | some opening =>
      (Text.slice? 0 opening e.text.toList).map fun callee =>
        some (String.ofList (Text.trim callee))

/-
  The arguments of a text as they are read by slicing.  The
  opening parenthesis is one byte long.
-/
def argumentsAt?
    (text : List Char) : Option (List String) :=
  match Text.find? '(' text, Text.find? ')' text with
  | some opening, some closing =>
      if closing < opening then
        some []
      else
        (Text.slice? (opening + 1) closing text).map
          argumentsIn
  | _, _ => some []

/- Slicing reads the same callee and never fails. -/
theorem targetAt?_eq
    (e : Expr) :
    e.targetAt? = some e.callTarget? := by
  rw [targetAt?, callTarget?]
  by_cases hOpen : '(' ∈ e.text.toList
  · rcases Text.exists_find?_of_mem hOpen with
      ⟨before, behind, hText, hFirst, hFind⟩
    have hCut := Text.cut?_eq_some_iff.mpr ⟨hText, hFirst⟩
    have hSlice :
        Text.slice? 0 (Text.byteLength before)
            e.text.toList =
          some before :=
      Text.slice?_eq_some_iff.mpr
        ⟨[], '(' :: behind, hText, rfl, rfl⟩
    rw [hFind, hCut]
    dsimp only
    rw [hSlice, Option.map_some, Option.map_some]
  · rw [Text.find?_of_not_mem hOpen,
      Text.cut?_eq_none_iff.mpr hOpen, Option.map_none]

/- Slicing reads the same interior and never fails. -/
theorem argumentsAt?_eq_elim
    (text : List Char) :
    argumentsAt? text =
      some ((callInterior? text).elim [] argumentsIn) := by
  rw [argumentsAt?]
  by_cases hOpen : '(' ∈ text
  · by_cases hClose : ')' ∈ text
    · rcases Text.exists_find?_of_mem hOpen with
        ⟨before, behind, hBefore, hFirst, hFindOpen⟩
      rcases Text.exists_find?_of_mem hClose with
        ⟨upTo, rest, hUpTo, hFirstClose, hFindClose⟩
      rw [hFindOpen, hFindClose]
      dsimp only
      by_cases hOrder :
          Text.byteLength upTo < Text.byteLength before
      · rcases Text.exists_append_of_byteLength_le
            (hUpTo.symm.trans hBefore) (le_of_lt hOrder) with
          ⟨between, rfl, _⟩
        rw [List.mem_append, not_or] at hFirst
        have hNone :=
          callInterior?_eq_none_iff.mpr
            (.inr
              (.inr ⟨upTo, rest, hUpTo, hFirstClose, hFirst.1⟩))
        rw [if_pos hOrder, hNone]
        rfl
      · rcases Text.exists_append_of_byteLength_le
            (hBefore.symm.trans hUpTo) (not_lt.mp hOrder) with
          ⟨between, rfl, hBetween⟩
        cases between with
        | nil => cases hBetween
        | cons mark interior =>
            rw [List.cons_append] at hBetween
            cases hBetween
            rw [List.mem_append, List.mem_cons, not_or,
              not_or] at hFirstClose
            have hInterior :=
              callInterior?_eq_some_iff.mpr
                ⟨before, rest, hBefore, hFirst,
                  hFirstClose.1, hFirstClose.2.2⟩
            have hSlice :
                Text.slice? (Text.byteLength before + 1)
                    (Text.byteLength
                      (before ++ '(' :: interior))
                    text =
                  some interior := by
              rw [Text.slice?_eq_some_iff]
              refine
                ⟨before ++ ['('], ')' :: rest, ?_, ?_, ?_⟩
              · rw [hBefore]
                simp
              · rw [Text.byteLength_append]
                rfl
              · simp
            rw [if_neg hOrder, hSlice, hInterior]
            rfl
    · have hNone :=
        callInterior?_eq_none_iff.mpr (.inr (.inl hClose))
      rw [Text.find?_of_not_mem hClose, hNone]
      cases Text.find? '(' text with
      | none => rfl
      | some opening => rfl
  · have hNone := callInterior?_eq_none_iff.mpr (.inl hOpen)
    rw [Text.find?_of_not_mem hOpen, hNone]
    rfl

/- Also in the trimmed text they are the arguments. -/
theorem argumentsAt?_trim
    (e : Expr) :
    argumentsAt? (Text.trim e.text.toList) =
      some e.callArguments := by
  have hTrim :=
    callInterior?_of_padded (Text.padded_trim e.text.toList)
  rw [argumentsAt?_eq_elim, callArguments_eq_elim, hTrim]

end Expr

end ScopeAnalysis

------------------------------------------------------------
-- Calls
------------------------------------------------------------

namespace ScopeAnalysis

namespace Expr

/-
  What is read from the text of an expression.  A call that
  it spells is read back, slices at places in bytes give the
  same and always exist, and there are no arguments when a
  parenthesis is missing or the closing one comes first.
-/
structure ReadsCalls (e : Expr) : Prop where
  round_trip :
    ∀ callee args,
      SpellsCall callee args e.text →
        ReadableCall callee args →
          e.callTarget? = some (Text.trimmed callee) ∧
            e.callArguments = args.map Text.trimmed
  target_sliced : e.targetAt? = some e.callTarget?
  arguments_sliced :
    argumentsAt? (Text.trim e.text.toList) =
      some e.callArguments
  no_open :
    '(' ∉ e.text.toList → e.callArguments = []
  no_close :
    ')' ∉ e.text.toList → e.callArguments = []
  reversed :
    ∀ before behind,
      e.text.toList = before ++ ')' :: behind →
        ')' ∉ before →
          '(' ∉ before → e.callArguments = []

/- Every expression is read like this. -/
theorem readsCalls
    (e : Expr) :
    e.ReadsCalls := by
  have hEmpty :
      callInterior? e.text.toList = none →
        e.callArguments = [] := by
    intro hNone
    rw [callArguments_eq_elim, hNone]
    rfl
  refine
    { round_trip := ?_
      target_sliced := e.targetAt?_eq
      arguments_sliced := e.argumentsAt?_trim
      no_open := ?_
      no_close := ?_
      reversed := ?_ }
  · intro callee args hSpells hReadable
    exact
      ⟨hSpells.callTarget?_eq hReadable,
        hSpells.callArguments_eq hReadable⟩
  · intro hOpen
    exact hEmpty (callInterior?_eq_none_iff.mpr (.inl hOpen))
  · intro hClose
    exact
      hEmpty
        (callInterior?_eq_none_iff.mpr (.inr (.inl hClose)))
  · intro before behind hText hClose hOpen
    exact
      hEmpty
        (callInterior?_eq_none_iff.mpr
          (.inr (.inr ⟨before, behind, hText, hClose, hOpen⟩)))

/- A call with blanks, with a `(` in it and with more behind. -/
theorem readsCalls_padded :
    SpellsCall "sum" ["1", "é("] " sum ( 1 ,é( )+" ∧
      callTarget? ⟨" sum ( 1 ,é( )+", 1, 4⟩ = some "sum" ∧
        callArguments ⟨" sum ( 1 ,é( )+", 1, 4⟩ =
          ["1", "é("] := by
  have hNone : ∀ c ∈ ([] : List Char), Text.isBlank c :=
    List.forall_mem_nil _
  have hSpace : ∀ c ∈ [' '], Text.isBlank c :=
    List.forall_mem_singleton.mpr (by decide)
  have hText :
      Text.Padded
        (" sum ".toList ++
          '(' :: (" 1 ,é( ".toList ++ ')' :: "+".toList))
        " sum ( 1 ,é( )+".toList :=
    ⟨[], [], by decide, hNone, hNone⟩
  have hSpells :
      SpellsCall "sum" ["1", "é("] " sum ( 1 ,é( )+" :=
    .intro
      ⟨[' '], [' '], by decide, hSpace, hSpace⟩
      (.cons ⟨[' '], [' '], rfl, hSpace, hSpace⟩
        (.cons ⟨[], [' '], rfl, hNone, hSpace⟩ .nil))
      ⟨[], [], by decide, hNone, hNone⟩ hText
  have hArgs :
      ∀ arg ∈ ["1", "é("],
        (∃ c ∈ arg.toList, Text.isBlank c = false) ∧
          ',' ∉ arg.toList ∧ ')' ∉ arg.toList := by
    rw [List.forall_mem_cons, List.forall_mem_singleton]
    exact
      ⟨⟨⟨'1', by decide, by decide⟩, by decide, by decide⟩,
        ⟨⟨'é', by decide, by decide⟩, by decide, by decide⟩⟩
  have hReadable : ReadableCall "sum" ["1", "é("] :=
    ⟨by decide, by decide, hArgs⟩
  exact
    ⟨hSpells,
      (readsCalls ⟨" sum ( 1 ,é( )+", 1, 4⟩).round_trip _ _
        hSpells hReadable⟩

end Expr

end ScopeAnalysis
