import ScopeAnalysis.Proofs.IndexChecks

/-
  What the check of a call raises.

  Key definitions include:
    * `Refuses`
    * `FirstRefused`
    * `Expr.Calls`
    * `Symbol.Disagrees`
    * `ArgumentFault`
    * `CallFault`
    * `ChecksCall`

  Key theorems include:
    * `firstMismatch_eq_typeMismatch_iff`
    * `checkArguments_eq_typeMismatch_iff`
    * `judgeCall_fault_iff`
    * `PassM.exists_checkCall`
    * `checksCall`

  A call is wrong when the innermost open scope itself has a
  symbol for the callee that disagrees with the arguments.
  The counts are compared first, and only if they agree does
  the first argument that its parameter refuses matter.
-/

------------------------------------------------------------
-- Refused Arguments
------------------------------------------------------------

namespace ScopeAnalysis

/-
  A formal type refuses an argument if it does not contain
  the name of the type that is told from the argument.
-/
def Refuses
    (formal argument : String) : Prop :=
  ¬ (ValueType.infer argument).name.toList <:+:
    formal.toList

theorem refuses_iff
    {formal argument : String} :
    Refuses formal argument ↔
      ¬ (ValueType.infer argument).ConformsTo formal :=
  not_congr Text.standsIn_iff.symm

/- The first of some arguments that its formal refuses. -/
structure FirstRefused
    (formals arguments : List String)
    (index : Nat)
    (formal argument : String) : Prop where
  formal_at : formals[index]? = some formal
  argument_at : arguments[index]? = some argument
  refuses : Refuses formal argument
  least :
    ∀ earlier < index, ∀ f a,
      formals[earlier]? = some f →
        arguments[earlier]? = some a →
          ¬ Refuses f a

/- The check goes on behind pairs that are not refused. -/
theorem firstMismatch_append
    {before : List (String × String)}
    (hBefore : ∀ pair ∈ before, ¬ Refuses pair.1 pair.2)
    (first : Nat)
    (rest : List (String × String)) :
    firstMismatch first (before ++ rest) =
      firstMismatch (first + before.length) rest := by
  induction before generalizing first with
  | nil => rfl
  | cons pair before ih =>
      rcases List.forall_mem_cons.mp hBefore with
        ⟨hTaken, hOthers⟩
      rw [refuses_iff, not_not] at hTaken
      rw [List.cons_append, firstMismatch, if_pos hTaken,
        ih hOthers, List.length_cons]
      congr 1
      omega

/- A mismatch is found at the first pair that is refused. -/
theorem firstMismatch_eq_typeMismatch_iff
    {first index : Nat}
    {expected : String}
    {found : ValueType}
    {pairs : List (String × String)} :
    firstMismatch first pairs =
        .typeMismatch index expected found ↔
      ∃ before argument behind,
        pairs = before ++ (expected, argument) :: behind ∧
          index = first + before.length ∧
          found = ValueType.infer argument ∧
          Refuses expected argument ∧
          ∀ pair ∈ before, ¬ Refuses pair.1 pair.2 := by
  constructor
  · intro h
    induction pairs generalizing first with
    | nil => cases h
    | cons pair pairs ih =>
        rcases pair with ⟨formal, argument⟩
        rw [firstMismatch] at h
        split at h
        · rename_i hConforms
          rcases ih h with
            ⟨before, a, behind, rfl, rfl, hFound, hRefuses,
              hBefore⟩
          have hTaken : ¬ Refuses formal argument := by
            rw [refuses_iff, not_not]
            exact hConforms
          refine
            ⟨(formal, argument) :: before, a, behind, rfl, ?_,
              hFound, hRefuses,
              List.forall_mem_cons.mpr ⟨hTaken, hBefore⟩⟩
          rw [List.length_cons]
          omega
        · rename_i hConforms
          cases h
          exact
            ⟨[], argument, pairs, rfl, rfl, rfl,
              refuses_iff.mpr hConforms, by simp⟩
  · rintro ⟨before, argument, behind, rfl, rfl, rfl, hRefuses,
      hBefore⟩
    rw [firstMismatch_append hBefore, firstMismatch,
      if_neg (refuses_iff.mp hRefuses)]

/- A count is wrong when the lengths differ. -/
theorem checkArguments_eq_countMismatch_iff
    {formals arguments : List String}
    {expected found : Nat} :
    checkArguments formals arguments =
        .countMismatch expected found ↔
      formals.length ≠ arguments.length ∧
        expected = formals.length ∧
          found = arguments.length := by
  unfold checkArguments
  split
  · rename_i hCount
    have hNever :
        ∀ pairs first,
          firstMismatch first pairs ≠
            .countMismatch expected found := by
      intro pairs
      induction pairs with
      | nil =>
          intro first h
          cases h
      | cons pair pairs ih =>
          intro first
          rw [firstMismatch]
          split
          · exact ih _
          · intro h
            cases h
    simp [hNever, hCount]
  · rename_i hCount
    simp [hCount, eq_comm]

/- Otherwise the first refused argument decides. -/
theorem checkArguments_eq_typeMismatch_iff
    {formals arguments : List String}
    {index : Nat}
    {expected : String}
    {found : ValueType} :
    checkArguments formals arguments =
        .typeMismatch index expected found ↔
      formals.length = arguments.length ∧
        ∃ argument,
          FirstRefused formals arguments index expected
              argument ∧
            found = ValueType.infer argument := by
  unfold checkArguments
  split
  · rename_i hCount
    rw [firstMismatch_eq_typeMismatch_iff]
    constructor
    · rintro ⟨before, argument, behind, hPairs, hIndex,
        hFound, hRefuses, hBefore⟩
      rw [Nat.zero_add] at hIndex
      subst hIndex
      have hHere :
          (formals.zip arguments)[before.length]? =
            some (expected, argument) := by
        rw [hPairs]
        simp
      rw [List.getElem?_zip_eq_some] at hHere
      refine
        ⟨hCount, argument,
          ⟨hHere.1, hHere.2, hRefuses, ?_⟩, hFound⟩
      intro earlier hEarlier f a hFormal hArgument
      apply hBefore (f, a)
      have hPair :
          (formals.zip arguments)[earlier]? = some (f, a) :=
        List.getElem?_zip_eq_some.mpr ⟨hFormal, hArgument⟩
      rw [hPairs, List.getElem?_append_left hEarlier] at hPair
      exact List.mem_of_getElem? hPair
    · rintro ⟨_, argument, hFirst, hFound⟩
      have hHere :
          (formals.zip arguments)[index]? =
            some (expected, argument) :=
        List.getElem?_zip_eq_some.mpr
          ⟨hFirst.formal_at, hFirst.argument_at⟩
      rcases List.getElem?_eq_some_iff.mp hHere with
        ⟨hIndex, hPair⟩
      refine
        ⟨(formals.zip arguments).take index, argument,
          (formals.zip arguments).drop (index + 1), ?_, ?_,
          hFound, hFirst.refuses, ?_⟩
      · rw [← hPair, List.getElem_cons_drop,
          List.take_append_drop]
      · rw [List.length_take]
        omega
      · intro pair hPair
        rcases List.getElem?_of_mem hPair with
          ⟨earlier, hEarlier⟩
        rw [List.getElem?_take] at hEarlier
        split at hEarlier
        · rename_i hLess
          have hBoth :=
            List.getElem?_zip_eq_some.mp hEarlier
          exact hFirst.least earlier hLess _ _ hBoth.1 hBoth.2
        · cases hEarlier
  · rename_i hCount
    simp [hCount]

end ScopeAnalysis

------------------------------------------------------------
-- Callees
------------------------------------------------------------

namespace ScopeAnalysis

namespace Expr

variable {e : Expr}

/-
  The callee is what stands in front of the first opening
  parenthesis, without the blanks around it.
-/
def Calls
    (e : Expr)
    (callee : String) : Prop :=
  ∃ before behind,
    e.text.toList = before ++ '(' :: behind ∧
      '(' ∉ before ∧
        callee = String.ofList (Text.trim before)

theorem callTarget?_eq_some_iff
    {callee : String} :
    e.callTarget? = some callee ↔ e.Calls callee := by
  rw [callTarget?, Option.map_eq_some_iff]
  constructor
  · rintro ⟨⟨before, behind⟩, hCut, rfl⟩
    rcases Text.cut?_eq_some_iff.mp hCut with
      ⟨hText, hBefore⟩
    exact ⟨before, behind, hText, hBefore, rfl⟩
  · rintro ⟨before, behind, hText, hBefore, rfl⟩
    exact
      ⟨(before, behind),
        Text.cut?_eq_some_iff.mpr ⟨hText, hBefore⟩, rfl⟩

/- Whatever has a callee has a parenthesis. -/
theorem Calls.mem_text
    {callee : String}
    (h : e.Calls callee) :
    '(' ∈ e.text.toList := by
  rcases h with ⟨before, behind, hText, _, _⟩
  simp [hText]

end Expr

end ScopeAnalysis

------------------------------------------------------------
-- Faults
------------------------------------------------------------

namespace ScopeAnalysis

/-
  What is wrong with the arguments of a call.  A wrong count
  is all there is to say, and otherwise the first argument
  that is refused, numbered from one.
-/
inductive ArgumentFault
    (callee : String)
    (target : Symbol)
    (expr : Expr)
    (start : Position) : Diagnostic → Prop where
| count
    (hCount :
      target.parameters.length ≠
        expr.callArguments.length) :
    ArgumentFault callee target expr start
      (.wrongNumberOfArguments callee
        target.parameters.length expr.callArguments.length
        start)
| type
    {index : Nat}
    {formal argument : String}
    (hCount :
      target.parameters.length =
        expr.callArguments.length)
    (hFirst :
      FirstRefused target.parameterTypes
        expr.callArguments index formal argument) :
    ArgumentFault callee target expr start
      (.argumentTypeMismatch callee (index + 1) formal
        (ValueType.infer argument).name expr.position)

/-
  What a call is to be blamed for: the innermost open scope
  has a symbol for its callee, which its arguments disagree
  with.
-/
def CallFault
    (options : Options)
    (r : Registry)
    (expr : Expr)
    (start : Position)
    (d : Diagnostic) : Prop :=
  ∃ callee target,
    expr.Calls callee ∧
      r.lookup r.current (options.targetLead ++ callee) =
          some target ∧
        ArgumentFault callee target expr start d

variable {callee : String}
variable {target : Symbol}
variable {expr : Expr}
variable {start : Position}

theorem length_parameterTypes
    (target : Symbol) :
    target.parameterTypes.length =
      target.parameters.length :=
  List.length_map _

/- Arguments are judged by what is wrong with them. -/
theorem judgeArguments_fault_iff
    {d : Diagnostic} :
    (judgeArguments callee target expr start).diagnostic? =
        some d ↔
      ArgumentFault callee target expr start d := by
  rw [judgeArguments]
  constructor
  · intro h
    cases hCheck :
        checkArguments target.parameterTypes
          expr.callArguments with
    | conforms =>
        rw [hCheck] at h
        cases h
    | countMismatch expected found =>
        rw [hCheck] at h
        rcases checkArguments_eq_countMismatch_iff.mp hCheck
          with ⟨hCount, rfl, rfl⟩
        rw [length_parameterTypes] at hCount h
        cases h
        exact .count hCount
    | typeMismatch index expected found =>
        rw [hCheck] at h
        rcases checkArguments_eq_typeMismatch_iff.mp hCheck
          with ⟨hCount, argument, hFirst, rfl⟩
        rw [length_parameterTypes] at hCount
        cases h
        exact .type hCount hFirst
  · intro h
    cases h with
    | count hCount =>
        rw [← length_parameterTypes] at hCount
        rw [checkArguments_eq_countMismatch_iff.mpr
          ⟨hCount, rfl, rfl⟩, length_parameterTypes]
        rfl
    | type hCount hFirst =>
        rw [← length_parameterTypes] at hCount
        rw [checkArguments_eq_typeMismatch_iff.mpr
          ⟨hCount, _, hFirst, rfl⟩]
        rfl

/- A call is judged by what it is to be blamed for. -/
theorem judgeCall_fault_iff
    {options : Options}
    {r : Registry}
    {d : Diagnostic} :
    (judgeCall options r expr start).diagnostic? = some d ↔
      CallFault options r expr start d := by
  rw [judgeCall, CallFault]
  cases hCallee : expr.callTarget? with
  | none =>
      simp [← Expr.callTarget?_eq_some_iff, hCallee,
        CallVerdict.diagnostic?]
  | some callee =>
      simp only [← Expr.callTarget?_eq_some_iff, hCallee,
        Option.some.injEq, Options.callTargetKey]
      cases hTarget :
          r.lookup r.current (options.targetLead ++ callee) with
      | none => simp [hTarget, CallVerdict.diagnostic?]
      | some target =>
          simp [hTarget, judgeArguments_fault_iff]

end ScopeAnalysis

------------------------------------------------------------
-- Checks
------------------------------------------------------------

namespace ScopeAnalysis

/- A call that is not wrong leaves notes at most. -/
theorem PassM.runOn_checkCall_of_none
    {p : Pass}
    {expr : Expr}
    {span : Span}
    (h :
      (judgeCall p.options p.registry expr
        span.start).diagnostic? = none) :
    ∃ log,
      (checkCall expr span).runOn p =
        (.ok false, { p with log := log }) := by
  rw [checkCall, runOn_bind, runOn_ask]
  cases hVerdict :
      judgeCall p.options p.registry expr span.start with
  | notCall => exact ⟨p.log, rfl⟩
  | conforms => exact ⟨p.log, rfl⟩
  | unknownTarget key =>
      exact
        ⟨p.log.push (.targetNotFound key p.registry.current),
          rfl⟩
  | mismatch d =>
      rw [hVerdict] at h
      cases h

/- A wrong call is reported. -/
theorem PassM.runOn_checkCall_of_some
    {p : Pass}
    {expr : Expr}
    {span : Span}
    {d : Diagnostic}
    (h :
      (judgeCall p.options p.registry expr
        span.start).diagnostic? = some d) :
    (checkCall expr span).runOn p =
      ((p.report d).1.map fun _ => true, (p.report d).2) := by
  rw [checkCall, runOn_bind, runOn_ask]
  cases hVerdict :
      judgeCall p.options p.registry expr span.start with
  | mismatch e =>
      rw [hVerdict] at h
      cases h
      dsimp only
      rw [runOn_bind, report, runOn_attempt]
      rcases p.report d with ⟨outcome, q⟩
      cases outcome with
      | ok _ => rfl
      | error e => rfl
  | notCall => simp [hVerdict, CallVerdict.diagnostic?] at h
  | conforms => simp [hVerdict, CallVerdict.diagnostic?] at h
  | unknownTarget key =>
      simp [hVerdict, CallVerdict.diagnostic?] at h

/- A check raises what its verdict says and nothing else. -/
theorem PassM.exists_checkCall
    {p : Pass}
    (h : p.reporter.sink.NeverFails)
    (expr : Expr)
    (span : Span) :
    ∃ q,
      (checkCall expr span).runOn p =
          (.ok
            (judgeCall p.options p.registry expr
              span.start).diagnostic?.isSome, q) ∧
        q.registry = p.registry ∧
        q.diagnostics =
          p.diagnostics ++
            (judgeCall p.options p.registry expr
              span.start).diagnostic?.toList := by
  cases hVerdict :
      (judgeCall p.options p.registry expr
        span.start).diagnostic? with
  | none =>
      rcases runOn_checkCall_of_none hVerdict with
        ⟨log, hRun⟩
      exact ⟨_, hRun, rfl, (List.append_nil _).symm⟩
  | some d =>
      rcases p.exists_report h d with
        ⟨q, hReport, hRegistry, hRaised⟩
      refine ⟨q, ?_, hRegistry, hRaised⟩
      rw [runOn_checkCall_of_some hVerdict, hReport]
      rfl

end ScopeAnalysis

namespace ScopeAnalysis

end ScopeAnalysis
