import ScopeAnalysis.Proofs.Hearing
import ScopeAnalysis.Proofs.Overloading

/-
  Symbol tables of programs without duplicates.

  Key definitions include:
    * `Visit.Unique`
    * `Visit.className?`
    * `Visit.fieldPlace?`
    * `Visit.methodPlace?`
    * `FaithfulTable`

  Key theorems include:
    * `yields_runPass`
    * `lookup_of_declared`
    * `nodup_filterMap_of_places`
    * `faithfulTable`

  A class, a field or a method that is not reported has taken
  its own key, and no later declaration takes it away.  Keys
  tell names apart, so names are only repeated where there is
  a report.
-/

------------------------------------------------------------
-- What Was Declared
------------------------------------------------------------

namespace ScopeAnalysis

/- A call that came out well is found under its key. -/
theorem lookup_of_declared
    {r : Registry}
    {calls : List DeclareCall}
    (h : Registry.initial.Yields calls r)
    {c : DeclareCall}
    (hc : c ∈ calls)
    (hDeclared : c.answer = .declared) :
    r.lookup c.scope c.key = some c.symbol := by
  apply (h.stores.lookup_iff _ _ _).mpr
  refine ⟨c, hc, ?_, rfl⟩
  rw [DeclareCall.place, hDeclared]
  rfl

variable {options : Options}
variable {sink : Sink}
variable {program : Program}

/- What an analysis leaves is what its visits declared. -/
theorem yields_runPass
    (h : (runPass options sink program).1 = .ok ()) :
    Registry.initial.Yields
      ((visitsOver options sink program).flatMap Visit.calls)
      (runPass options sink program).2.registry := by
  rcases hears_of_runPass h with ⟨q, hHears, _, hFrame⟩
  have hRegistry :
      (runPass options sink program).2.registry =
        q.registry :=
    congrArg Frame.registry hFrame
  rw [hRegistry, hHears.eq_afterEvents]
  exact yields_afterEvents
    (.enteredOver options sink program)
    (Node.eventsOfAll program.items)

/-
  Where no two declarations share a place, names that are
  read off the places differ from visit to visit.
-/
theorem nodup_filterMap_of_places
    {κ : Type}
    {vs : List Visit}
    (h :
      ((vs.flatMap Visit.calls).map
        DeclareCall.place).Nodup)
    (name? : Visit → Option κ)
    (place : κ → ScopeId × String)
    (hPlace :
      ∀ v ∈ vs, ∀ name,
        name? v = some name →
          place name ∈ v.calls.map DeclareCall.place) :
    (vs.filterMap name?).Nodup := by
  rw [List.map_flatMap] at h
  have hApart := (List.nodup_flatMap.mp h).2
  apply List.pairwise_filterMap.mpr
  refine hApart.imp_of_mem ?_
  intro u v hu hv hDisjoint name hName other hOther hEq
  apply hDisjoint (hPlace u hu name hName)
  rw [hEq]
  exact hPlace v hv other hOther

end ScopeAnalysis

------------------------------------------------------------
-- Visits Without Duplicates
------------------------------------------------------------

namespace ScopeAnalysis

namespace Visit

/- A visit is not to be blamed for a duplicate. -/
def Unique (v : Visit) : Prop :=
  ∀ d ∈ v.violations, d.category ≠ .duplicateDefinition

variable {v : Visit}

theorem Unique.class_declared
    (h : v.Unique)
    {decl : ClassDecl}
    (hKind : v.node.kind = .classDecl decl) :
    (v.classCall decl).answer = .declared := by
  apply (v.before.registry.declared_iff _ _
    (.ofClass decl.name decl.access decl.parent)
    v.node.span.start).mpr
  intro hTaken
  apply h (.classAlreadyDefined decl.name v.node.span.start)
  · simp [violations, Node.violations, hKind, hTaken]
  · rfl

theorem Unique.field_declared
    (h : v.Unique)
    {decl : FieldDecl}
    (hKind : v.node.kind = .fieldDecl decl) :
    (v.fieldCall decl).answer = .declared := by
  apply (v.before.registry.declared_iff _ _
    (.ofField decl.name decl.type decl.access)
    v.node.span.start).mpr
  intro hTaken
  rw [scope] at hTaken
  apply h (.fieldAlreadyDefined decl.name v.node.span.start)
  · simp [violations, Node.violations, hKind, hTaken]
  · rfl

theorem Unique.method_declared
    (h : v.Unique)
    {decl : MethodDecl}
    (hKind : v.node.kind = .methodDecl decl) :
    (v.methodCall decl).answer = .declared := by
  apply (v.before.registry.declared_iff _ _
    (.ofMethod decl.name decl.returnType decl.access
      decl.formals)
    v.node.span.start).mpr
  intro hTaken
  rw [scope] at hTaken
  apply h (.methodAlreadyDefined decl.name v.node.span.start)
  · simp [violations, Node.violations, hKind, hTaken]
  · rfl

/- The name of the class that a visit declares. -/
def className? (v : Visit) : Option String :=
  match v.node.kind with
  | .classDecl decl => some decl.name
  | _ => none

/- The scope and the name of the field of a visit. -/
def fieldPlace? (v : Visit) : Option (ScopeId × String) :=
  match v.node.kind with
  | .fieldDecl decl => some (v.scope, decl.name)
  | _ => none

/- The scope and the signature of the method of a visit. -/
def methodPlace? (v : Visit) : Option (ScopeId × String) :=
  match v.node.kind with
  | .methodDecl decl => some (v.scope, decl.signature)
  | _ => none

/- A call that came out well takes its own key. -/
theorem place_mem_calls
    {c : DeclareCall}
    (hc : c ∈ v.calls)
    (hDeclared : c.answer = .declared) :
    (c.scope, c.key) ∈ v.calls.map DeclareCall.place := by
  apply List.mem_map.mpr
  refine ⟨c, hc, ?_⟩
  rw [DeclareCall.place, hDeclared]
  rfl

theorem Unique.class_place
    (h : v.Unique)
    {name : String}
    (hName : v.className? = some name) :
    (ScopeId.global, SymbolKey.classKey name) ∈
      v.calls.map DeclareCall.place := by
  unfold className? at hName
  split at hName
  · rename_i decl hKind
    cases hName
    exact place_mem_calls (classCall_mem_calls hKind)
      (h.class_declared hKind)
  · cases hName

theorem Unique.field_place
    (h : v.Unique)
    {place : ScopeId × String}
    (hPlace : v.fieldPlace? = some place) :
    (place.1, SymbolKey.fieldKey place.2) ∈
      v.calls.map DeclareCall.place := by
  unfold fieldPlace? at hPlace
  split at hPlace
  · rename_i decl hKind
    cases hPlace
    exact place_mem_calls (fieldCall_mem_calls hKind)
      (h.field_declared hKind)
  · cases hPlace

theorem Unique.method_place
    (h : v.Unique)
    {place : ScopeId × String}
    (hPlace : v.methodPlace? = some place) :
    (place.1, SymbolKey.methodKey place.2) ∈
      v.calls.map DeclareCall.place := by
  unfold methodPlace? at hPlace
  split at hPlace
  · rename_i decl hKind
    cases hPlace
    exact place_mem_calls (methodCall_mem_calls hKind)
      (h.method_declared hKind)
  · cases hPlace

end Visit

end ScopeAnalysis

------------------------------------------------------------
-- Whole Analyses
------------------------------------------------------------

namespace ScopeAnalysis

/-
  What the final registry tells about the nodes of a program,
  which are visited in pre-order.  Each class is found in the
  global scope, and each field and each method in the scope
  that was innermost when it was visited, with all that its
  node says and nothing else.  Names of classes differ, and
  so do names of fields and signatures of methods within one
  scope.
-/
structure FaithfulTable
    (options : Options)
    (sink : Sink)
    (program : Program) : Prop where
  nodes :
    (visitsOver options sink program).map Visit.node =
      Node.preorderAll program.items
  classes :
    ∀ v ∈ visitsOver options sink program, ∀ decl,
      v.node.kind = .classDecl decl →
        (runPass options sink program).2.registry.lookup
            .global ("class_" ++ decl.name) =
          some
            { kind := .classType
              name := decl.name
              type := none
              access := some (decl.access.getD "default")
              inherits :=
                decl.parent.map fun name => "class_" ++ name
              parameters := []
              firstLine := none
              arrayLength := none }
  fields :
    ∀ v ∈ visitsOver options sink program, ∀ decl,
      v.node.kind = .fieldDecl decl →
        (runPass options sink program).2.registry.lookup
            v.scope ("field_" ++ decl.name) =
          some
            { kind := .field
              name := decl.name
              type := some decl.type
              access := some (decl.access.getD "default")
              inherits := none
              parameters := []
              firstLine := none
              arrayLength := none }
  methods :
    ∀ v ∈ visitsOver options sink program, ∀ decl,
      v.node.kind = .methodDecl decl →
        (runPass options sink program).2.registry.lookup
            v.scope ("method_" ++ decl.signature) =
          some
            { kind := .method
              name := decl.name
              type := some decl.returnType
              access := some (decl.access.getD "default")
              inherits := none
              parameters :=
                if decl.paramNames = [] then
                  []
                else
                  ((decl.identifiers.drop 1).zip
                    decl.paramTypes).mapIdx
                      fun i pair =>
                        ⟨i + 1, pair.1, pair.2⟩
              firstLine := none
              arrayLength := none }
  class_names :
    ((visitsOver options sink program).filterMap
      Visit.className?).Nodup
  field_names :
    ((visitsOver options sink program).filterMap
      Visit.fieldPlace?).Nodup
  method_signatures :
    ((visitsOver options sink program).filterMap
      Visit.methodPlace?).Nodup

variable {options : Options}
variable {sink : Sink}
variable {program : Program}

/- No visit is to be blamed for what was not raised. -/
theorem unique_of_mem_visitsOver
    (hEnds : (runPass options sink program).1 = .ok ())
    (hNone :
      ∀ d ∈ (runPass options sink program).2.diagnostics,
        d.category ≠ .duplicateDefinition)
    {v : Visit}
    (hv : v ∈ visitsOver options sink program) :
    v.Unique := by
  intro d hd
  apply hNone d
  rw [(runPass_ok hEnds).1]
  exact List.mem_flatMap.mpr ⟨v, hv, hd⟩

/-
  An analysis that ends well and raises no duplicate leaves
  a faithful table behind.
-/
theorem faithfulTable
    (hEnds : (runPass options sink program).1 = .ok ())
    (hNone :
      ∀ d ∈ (runPass options sink program).2.diagnostics,
        d.category ≠ .duplicateDefinition) :
    FaithfulTable options sink program := by
  have hYields := yields_runPass hEnds
  have hPlaces := hYields.stores.places_nodup
  have hFound :
      ∀ v ∈ visitsOver options sink program,
        ∀ c ∈ v.calls,
          c.answer = .declared →
            (runPass options sink program).2.registry.lookup
                c.scope c.key =
              some c.symbol := by
    intro v hv c hc hDeclared
    exact lookup_of_declared hYields
      (List.mem_flatMap.mpr ⟨v, hv, hc⟩) hDeclared
  have hUnique :
      ∀ v ∈ visitsOver options sink program, v.Unique :=
    fun v hv => unique_of_mem_visitsOver hEnds hNone hv
  refine ⟨?_, ?_, ?_, ?_, ?_, ?_, ?_⟩
  · rw [visitsOver, nodes_visitsFrom, entered_eventsOfAll]
  · intro v hv decl hKind
    exact hFound v hv _ (Visit.classCall_mem_calls hKind)
      ((hUnique v hv).class_declared hKind)
  · intro v hv decl hKind
    exact hFound v hv _ (Visit.fieldCall_mem_calls hKind)
      ((hUnique v hv).field_declared hKind)
  · intro v hv decl hKind
    rw [← decl.formals_eq]
    exact hFound v hv _ (Visit.methodCall_mem_calls hKind)
      ((hUnique v hv).method_declared hKind)
  · exact nodup_filterMap_of_places hPlaces _
      (fun name => (.global, SymbolKey.classKey name))
      fun v hv _ hName => (hUnique v hv).class_place hName
  · exact nodup_filterMap_of_places hPlaces _
      (fun place => (place.1, SymbolKey.fieldKey place.2))
      fun v hv _ hPlace => (hUnique v hv).field_place hPlace
  · exact nodup_filterMap_of_places hPlaces _
      (fun place => (place.1, SymbolKey.methodKey place.2))
      fun v hv _ hPlace => (hUnique v hv).method_place hPlace

/-
  A class with a field, and with a method whose return type
  is not the expected one, and a class that inherits it and
  has a field of the same name.
-/
def Program.twoClasses : Program where
  source := "twoClasses"
  items :=
    [ { kind := .classDecl ⟨"A", none, some "public"⟩
        span := .lines 1 0 4
        children :=
          [ { kind := .fieldDecl ⟨"x", "int", none⟩
              span := .token 2 4
              children := [] },
            { kind :=
                .methodDecl
                  (.ofParts "f" "int" none
                    [.param "n" "double"])
              span := .token 3 4
              children := [] } ] },
      { kind := .classDecl ⟨"B", some "A", none⟩
        span := .lines 5 0 7
        children :=
          [ { kind := .fieldDecl ⟨"x", "int", none⟩
              span := .token 6 4
              children := [] } ] } ]

/-
  Its table is faithful, although something is raised: both
  classes, the field and the method are found as declared.
-/
theorem faithfulTable_twoClasses :
    let r :=
      (runPass .standard .unlimited .twoClasses).2.registry
    (runPass .standard .unlimited .twoClasses).1 = .ok () ∧
      (runPass .standard .unlimited
          .twoClasses).2.diagnostics =
        [ .returnTypeMismatch "f" "MethodReturnType" "int"
            ⟨3, 4⟩ ] ∧
      FaithfulTable .standard .unlimited .twoClasses ∧
      r.lookup .global "class_A" =
        some
          { kind := .classType
            name := "A"
            type := none
            access := some "public"
            inherits := none
            parameters := []
            firstLine := none
            arrayLength := none } ∧
      r.lookup .global "class_B" =
        some
          { kind := .classType
            name := "B"
            type := none
            access := some "default"
            inherits := some "class_A"
            parameters := []
            firstLine := none
            arrayLength := none } ∧
      r.lookup ⟨"class_A"⟩ "field_x" =
        some
          { kind := .field
            name := "x"
            type := some "int"
            access := some "default"
            inherits := none
            parameters := []
            firstLine := none
            arrayLength := none } ∧
      r.lookup ⟨"class_A"⟩ "method_f(double)" =
        some
          { kind := .method
            name := "f"
            type := some "int"
            access := some "default"
            inherits := none
            parameters := [⟨1, "n", "double"⟩]
            firstLine := none
            arrayLength := none } := by
  intro r
  have hEnds := (runPass_visits .standard .twoClasses).1
  have hRaised :
      (runPass .standard .unlimited
          .twoClasses).2.diagnostics =
        [ .returnTypeMismatch "f" "MethodReturnType" "int"
            ⟨3, 4⟩ ] := by
    rw [diagnostics_of_frames hEnds]
    decide +kernel
  have hNone :
      ∀ d ∈
          (runPass .standard .unlimited
            .twoClasses).2.diagnostics,
        d.category ≠ .duplicateDefinition := by
    rw [hRaised]
    decide
  refine
    ⟨hEnds, hRaised, faithfulTable hEnds hNone, ?_⟩
  decide +kernel

end ScopeAnalysis
