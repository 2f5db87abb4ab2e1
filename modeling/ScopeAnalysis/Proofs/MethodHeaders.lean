import ScopeAnalysis.Proofs.IndexChecks
import ScopeAnalysis.Proofs.Signature

/-
  What the header of a method declares and what it raises.

  Key definitions include:
    * `MethodDecl.Pairs`
    * `EntersHeader`

  Key theorems include:
    * `MethodDecl.pairs_formals`
    * `Sink.limit_of_neverFails`
    * `PassM.exists_enterMethod`
    * `entersHeader`

  Every part of a header brings an identifier, and only
  parameters bring a type.  So there are never too few names
  for the types, and a stray in front of a parameter takes
  its type.  The counts differ as soon as there is a stray.
-/

------------------------------------------------------------
-- Pairing
------------------------------------------------------------

namespace ScopeAnalysis

namespace MethodDecl

/-
  Parameters that are paired from parts: one for each type,
  numbered from one, with the first identifiers as names.
-/
structure Pairs
    (parts : List Part)
    (ps : List Parameter) : Prop where
  length : ps.length = Part.params parts
  indexes :
    ps.map Parameter.index =
      List.range' 1 (Part.params parts)
  types : ps.map Parameter.type = Part.types parts
  names :
    ps.map Parameter.name =
      (Part.names parts).take (Part.params parts)

variable (name returnType : String)
variable (access : Option String)
variable (parts : List Part)

/- The identifiers and types of a header, pair by pair. -/
theorem entries_ofParts :
    (ofParts name returnType access parts).formals =
      (((Part.names parts).zip (Part.types parts)).zipIdx
          1).map
        fun entry => ⟨entry.2, entry.1.1, entry.1.2⟩ := by
  rw [formals_ofParts, ofParts_eq]
  rfl

/- There is an identifier for every type. -/
theorem zip_names_types :
    (Part.names parts).zip (Part.types parts) =
      ((Part.names parts).take (Part.params parts)).zip
        (Part.types parts) := by
  have hShorter :
      min (Part.names parts).length
          (Part.types parts).length =
        Part.params parts := by
    rw [Part.length_types, Part.length_names]
    omega
  rw [List.zip_eq_zip_take_min, hShorter,
    List.take_of_length_le
      (Part.length_types parts).le]

/- A header declares what its parts pair. -/
theorem pairs_formals :
    Pairs parts
      (ofParts name returnType access parts).formals := by
  have hTaken :
      ((Part.names parts).take (Part.params parts)).length =
        Part.params parts := by
    rw [List.length_take, Part.length_names]
    omega
  have hTypes := types_formals_ofParts name returnType access
    parts
  rw [ofParts_eq name returnType access parts] at hTypes
  refine ⟨?_, ?_, ?_, ?_⟩
  · have hLength := congrArg List.length hTypes
    rw [List.length_map, Part.length_types] at hLength
    rw [ofParts_eq]
    exact hLength
  · rw [entries_ofParts, zip_names_types, List.map_map]
    calc
      _ = ((((Part.names parts).take
              (Part.params parts)).zip
            (Part.types parts)).zipIdx 1).map Prod.snd := rfl
      _ = List.range' 1 (Part.params parts) := by
        rw [List.zipIdx_map_snd, List.length_zip, hTaken,
          Part.length_types, Nat.min_self]
  · rw [ofParts_eq]
    exact hTypes
  · rw [entries_ofParts, zip_names_types, List.map_map]
    calc
      _ = ((((Part.names parts).take
              (Part.params parts)).zip
            (Part.types parts)).zipIdx 1).map
              (Prod.fst ∘ Prod.fst) := rfl
      _ = (Part.names parts).take (Part.params parts) := by
        rw [← List.map_map, List.zipIdx_map_fst,
          List.map_fst_zip]
        rw [hTaken, Part.length_types]

/- The signature lists the types that the parts bring. -/
theorem signature_ofParts :
    (ofParts name returnType access parts).signature =
      name ++ "(" ++
        String.intercalate "," (Part.types parts) ++
        ")" := by
  rw [signature, methodSignature,
    (pairs_formals name returnType access parts).types,
    ofParts_eq]

end MethodDecl

end ScopeAnalysis

------------------------------------------------------------
-- Checks Of Headers
------------------------------------------------------------

namespace ScopeAnalysis

open MethodDecl (Part)

/- The counts of a header differ if a part is a stray. -/
theorem parameterCountViolations_ofParts
    (name returnType : String)
    (access : Option String)
    (parts : List Part)
    (start : Position) :
    parameterCountViolations
        (.ofParts name returnType access parts) start =
      if Part.strays parts = 0 then
        []
      else
        [ .parameterCountMismatch name (Part.params parts)
            (Part.params parts + Part.strays parts)
            start ] := by
  have hLabels :
      (MethodDecl.ofParts name returnType access
          parts).paramNames.length =
        Part.params parts := by
    rw [MethodDecl.ofParts_eq, Part.length_labels]
  have hName :
      (MethodDecl.ofParts name returnType access
          parts).name = name := by
    rw [MethodDecl.ofParts_eq]
  rw [parameterCountViolations, hLabels,
    MethodDecl.captured_ofParts, hName]
  simp only [Nat.left_eq_add]

/- Among the mistakes of a header at most one is a count. -/
theorem filter_headerViolations
    (options : Options)
    (decl : MethodDecl)
    (start : Position) :
    (headerViolations options decl start).filter
        (fun d => d.code = .parameterCountMismatch) =
      parameterCountViolations decl start := by
  have hType :
      (returnTypeViolations options.returnTypeRule decl
          start).filter
        (fun d => d.code = .parameterCountMismatch) = [] := by
    unfold returnTypeViolations
    split <;> simp [Diagnostic.code]
  have hCount :
      (parameterCountViolations decl start).filter
          (fun d => d.code = .parameterCountMismatch) =
        parameterCountViolations decl start := by
    unfold parameterCountViolations
    split <;> simp [Diagnostic.code]
  rw [headerViolations, List.filter_append, hType, hCount,
    List.nil_append]

end ScopeAnalysis

------------------------------------------------------------
-- Entering A Method
------------------------------------------------------------

namespace ScopeAnalysis

open MethodDecl (Part)

/- A limit is passed by some text. -/
theorem Sink.limit_of_neverFails
    {s : Sink}
    (h : s.NeverFails) :
    s.limit = none := by
  have hText :
      ∀ n, ∃ text : String, text.toUTF8.size = n := by
    intro n
    induction n with
    | zero => exact ⟨"", rfl⟩
    | succ n ih =>
        rcases ih with ⟨text, hSize⟩
        refine ⟨text ++ "a", ?_⟩
        rw [String.toUTF8_eq_toByteArray,
          String.toByteArray_append, ByteArray.size_append,
          ← String.toUTF8_eq_toByteArray, hSize]
        rfl
  cases hLimit : s.limit with
  | none => rfl
  | some limit =>
      rcases hText (limit + 1) with ⟨text, hSize⟩
      have hRoom := (s.write_ok_iff text).mp (h text)
      rw [hSize, room, hLimit] at hRoom
      simp only at hRoom
      omega

namespace PassM

/- Over a sink that never fails all mistakes are raised. -/
theorem exists_reportAll
    {p : Pass}
    (h : p.reporter.sink.limit = none)
    (ds : List Diagnostic) :
    ∃ q,
      (reportAll ds).runOn p = (.ok (), q) ∧
        q.registry = p.registry ∧
        q.diagnostics = p.diagnostics ++ ds := by
  induction ds generalizing p with
  | nil => exact ⟨p, rfl, rfl, (List.append_nil _).symm⟩
  | cons d ds ih =>
      rcases ih (p := p.raise d) h with
        ⟨q, hRun, hRegistry, hRaised⟩
      refine ⟨q, ?_, hRegistry, ?_⟩
      · rw [reportAll, runOn_bind, report, runOn_attempt,
          Pass.report_of_unlimited h]
        exact hRun
      · rw [hRaised, Pass.diagnostics_raise,
          List.append_assoc]
        rfl

/-
  A method whose key is free is stored under it and opens
  its scope, and all mistakes of its header are raised.
-/
theorem exists_enterMethod
    {p : Pass}
    {decl : MethodDecl}
    (hSink : p.reporter.sink.NeverFails)
    (hFree :
      p.registry.lookup p.registry.current
        (SymbolKey.methodKey decl.signature) = none)
    (span : Span) :
    ∃ q,
      (enterMethod decl span).runOn p = (.ok (), q) ∧
        q.registry.lookup p.registry.current
            (SymbolKey.methodKey decl.signature) =
          some
            (.ofMethod decl.name decl.returnType decl.access
              decl.formals) ∧
        q.diagnostics =
          p.diagnostics ++
            headerViolations p.options decl span.start := by
  let symbol : Symbol :=
    .ofMethod decl.name decl.returnType decl.access
      decl.formals
  let declared :=
    p.declareHere (SymbolKey.methodKey decl.signature)
      symbol span.start
  let entered :=
    (declared.2.openScope
      (.ofMethod decl.signature)).rememberMethod true
  have hDeclared : declared.1 = .declared :=
    (p.registry.declared_iff _ _ symbol span.start).mpr
      (by simp [Registry.has, hFree])
  -- The header is checked once the scope is open.
  rcases exists_reportAll (p := entered)
      (Sink.limit_of_neverFails hSink)
      (headerViolations p.options decl span.start) with
    ⟨q, hRun, hRegistry, hRaised⟩
  refine ⟨q, ?_, ?_, hRaised⟩
  · rw [enterMethod, runOn_bind, runOn_step]
    dsimp only
    rw [show (p.declareHere _ _ _).1 = .declared from hDeclared]
    exact hRun
  · rw [hRegistry]
    calc
      _ = declared.2.registry.lookup p.registry.current
            (SymbolKey.methodKey decl.signature) :=
          Registry.lookup_enter ..
      _ = some symbol :=
          Registry.lookup_declare_of_free hFree symbol
            span.start

end PassM

/-
  The state `q` that entering a method leads to from `p` if
  the method is built from parts and its key is free.  The
  symbol that is stored tells what the header says, with one
  parameter for each type, and that the parts do not agree is
  raised once if there is a stray.
-/
structure EntersHeader
    (name returnType : String)
    (access : Option String)
    (parts : List Part)
    (start : Position)
    (p q : Pass) : Prop where
  signature :
    (MethodDecl.ofParts name returnType access
        parts).signature =
      name ++ "(" ++
        String.intercalate "," (Part.types parts) ++ ")"
  stored :
    ∃ symbol,
      q.registry.lookup p.registry.current
          ("method_" ++ name ++ "(" ++
            String.intercalate "," (Part.types parts) ++
            ")") =
        some symbol ∧
        symbol.kind = .method ∧
        symbol.name = name ∧
        symbol.type = some returnType ∧
        symbol.access = some (access.getD "default") ∧
        MethodDecl.Pairs parts symbol.parameters ∧
        symbol.inherits = none ∧
        symbol.firstLine = none ∧
        symbol.arrayLength = none
  raised :
    ∃ ds,
      q.diagnostics = p.diagnostics ++ ds ∧
        ds.filter
            (fun d => d.code = .parameterCountMismatch) =
          if Part.strays parts = 0 then
            []
          else
            [ .parameterCountMismatch name
                (Part.params parts)
                (Part.params parts + Part.strays parts)
                start ]

/- Every method is entered so if its key is free. -/
theorem entersHeader
    (name returnType : String)
    (access : Option String)
    (parts : List Part)
    (span : Span)
    (p : Pass)
    (hSink : p.reporter.sink.NeverFails)
    (hFree :
      p.registry.lookup p.registry.current
          (SymbolKey.methodKey
            (MethodDecl.ofParts name returnType access
              parts).signature) =
        none) :
    ∃ q,
      (PassM.enterMethod
          (.ofParts name returnType access parts)
          span).runOn p =
        (.ok (), q) ∧
        EntersHeader name returnType access parts span.start
          p q := by
  rcases PassM.exists_enterMethod hSink hFree span with
    ⟨q, hRun, hStored, hRaised⟩
  have hSignature :=
    MethodDecl.signature_ofParts name returnType access parts
  have hPairs :=
    MethodDecl.pairs_formals name returnType access parts
  rw [hSignature, SymbolKey.methodKey, ← String.append_assoc,
    ← String.append_assoc, ← String.append_assoc] at hStored
  refine ⟨q, hRun, hSignature, ⟨_, hStored, ?_⟩, ?_⟩
  · simp only [MethodDecl.ofParts_eq] at hPairs ⊢
    exact ⟨rfl, rfl, rfl, rfl, hPairs, rfl, rfl, rfl⟩
  · refine ⟨_, hRaised, ?_⟩
    rw [filter_headerViolations,
      parameterCountViolations_ofParts]

/-
  A stray in front of a parameter takes the parameter's type
  and is reported.
-/
theorem entersHeader_stray_first :
    let parts : List Part :=
      [.identifier "stray", .param "a" "int"]
    let p := Pass.start .standard .unlimited
    p.reporter.sink.NeverFails ∧
      p.registry.lookup p.registry.current
          (SymbolKey.methodKey
            (MethodDecl.ofParts "f" "int" none
              parts).signature) =
        none ∧
      ∃ (q : Pass) (symbol : Symbol),
        (PassM.enterMethod (.ofParts "f" "int" none parts)
            (.token 3 4)).runOn p =
          (.ok (), q) ∧
          q.registry.lookup .global "method_f(int)" =
            some symbol ∧
          symbol.kind = .method ∧
          symbol.name = "f" ∧
          symbol.type = some "int" ∧
          symbol.access = some "default" ∧
          symbol.parameters = [⟨1, "stray", "int"⟩] ∧
          .parameterCountMismatch "f" 1 2 ⟨3, 4⟩ ∈
            q.diagnostics := by
  intro parts p
  have hSink : p.reporter.sink.NeverFails :=
    Sink.neverFails_of_unlimited rfl
  have hFree :
      p.registry.lookup p.registry.current
          (SymbolKey.methodKey
            (MethodDecl.ofParts "f" "int" none
              parts).signature) =
        none :=
    Registry.lookup_initial _ _
  rcases entersHeader "f" "int" none parts (.token 3 4) p
      hSink hFree with
    ⟨q, hRun, hEnters⟩
  rcases hEnters.stored with
    ⟨symbol, hStored, hKind, hName, hType, hAccess, hPairs, _⟩
  rcases hEnters.raised with ⟨ds, hRaised, hCount⟩
  refine
    ⟨hSink, hFree, q, symbol, hRun, hStored, hKind, hName,
      hType, hAccess, ?_, ?_⟩
  · rcases List.length_eq_one_iff.mp hPairs.length with
      ⟨parameter, hOne⟩
    have hIndexes := hPairs.indexes
    have hTypes := hPairs.types
    have hNames := hPairs.names
    rw [hOne] at hIndexes hTypes hNames ⊢
    rcases parameter with ⟨index, parameterName, type⟩
    cases hIndexes
    cases hTypes
    cases hNames
    rfl
  · have hMem :
        Diagnostic.parameterCountMismatch "f" 1 2 ⟨3, 4⟩ ∈
          ds.filter
            (fun d => d.code = .parameterCountMismatch) := by
      rw [hCount]
      decide
    rw [hRaised]
    exact List.mem_append_right _ (List.mem_filter.mp hMem).1

end ScopeAnalysis
