import ScopeAnalysis.Syntax.Declaration
import ScopeAnalysis.Text.Pieces

/-
  Reading signatures back.

  Key definitions include:
    * `ReadableSignature`
    * `MethodDecl.Readable`
    * `MethodDecl.Part.types`
    * `MethodDecl.Part.names`
    * `MethodDecl.Part.strays`

  Key theorems include:
    * `methodSignature_inj`
    * `MethodDecl.signature_inj`
    * `MethodDecl.formals_eq`
    * `MethodDecl.types_formals`
    * `MethodDecl.ofParts_eq`
    * `MethodDecl.types_formals_ofParts`

  A signature is a name, a parenthesis and the types between
  commas.  It determines the name and the types where the
  name has no parenthesis and the types are not empty and
  have no comma.

  A header is built part by part, and the three lists that it
  holds are read off its parts.  A parameter brings a type
  and a name, and a stray identifier brings a name only.
-/

------------------------------------------------------------
-- Joined Pieces
------------------------------------------------------------

namespace ScopeAnalysis

namespace Text

/- What is joined at marks is cut into the same pieces. -/
theorem splitOn_joined
    {mark : Char}
    {pieces : List (List Char)}
    (hMark : ∀ piece ∈ pieces, mark ∉ piece) :
    ([mark].intercalate pieces).splitOn mark =
      if pieces = [] then [[]] else pieces := by
  split
  · rename_i hNone
    rw [hNone]
    rfl
  · rename_i hSome
    exact List.splitOn_intercalate mark hMark hSome

/- Pieces that are not empty are told apart when joined. -/
theorem joined_inj
    {mark : Char}
    {xs ys : List (List Char)}
    (hxs : ∀ x ∈ xs, x ≠ [] ∧ mark ∉ x)
    (hys : ∀ y ∈ ys, y ≠ [] ∧ mark ∉ y)
    (h : [mark].intercalate xs = [mark].intercalate ys) :
    xs = ys := by
  have hSplit := congrArg (List.splitOn mark) h
  rw [splitOn_joined fun x hx => (hxs x hx).2,
    splitOn_joined fun y hy => (hys y hy).2] at hSplit
  -- No pieces at all look like one empty piece.
  split at hSplit
  · rename_i hNone
    split at hSplit
    · rename_i hNone'
      rw [hNone, hNone']
    · have hEmpty : [] ∈ ys := by simp [← hSplit]
      exact absurd rfl (hys [] hEmpty).1
  · split at hSplit
    · have hEmpty : [] ∈ xs := by simp [hSplit]
      exact absurd rfl (hxs [] hEmpty).1
    · exact hSplit

end Text

end ScopeAnalysis

------------------------------------------------------------
-- Signatures
------------------------------------------------------------

namespace ScopeAnalysis

/- A name and types that a signature keeps apart. -/
structure ReadableSignature
    (name : String)
    (types : List String) : Prop where
  name : '(' ∉ name.toList
  types : ∀ type ∈ types, type ≠ "" ∧ ',' ∉ type.toList

theorem ReadableSignature.pieces
    {name : String}
    {types : List String}
    (h : ReadableSignature name types) :
    ∀ piece ∈ types.map String.toList,
      piece ≠ [] ∧ ',' ∉ piece := by
  intro piece hPiece
  rcases List.mem_map.mp hPiece with ⟨type, hType, rfl⟩
  have hPlain := h.types type hType
  refine ⟨?_, hPlain.2⟩
  rw [ne_eq, String.toList_eq_nil_iff]
  exact hPlain.1

theorem toList_methodSignature
    (name : String)
    (parameters : List Parameter) :
    (methodSignature name parameters).toList =
      name.toList ++
        '(' ::
          ([','].intercalate
            ((parameters.map Parameter.type).map
              String.toList) ++
            [')']) := by
  simp [methodSignature, String.toList_intercalate]

/- A readable signature gives back its name and types. -/
theorem methodSignature_inj
    {name other : String}
    {ps qs : List Parameter}
    (hps :
      ReadableSignature name (ps.map Parameter.type))
    (hqs :
      ReadableSignature other (qs.map Parameter.type)) :
    methodSignature name ps = methodSignature other qs ↔
      name = other ∧
        ps.map Parameter.type = qs.map Parameter.type := by
  constructor
  · intro h
    have hList := congrArg String.toList h
    rw [toList_methodSignature,
      toList_methodSignature] at hList
    rcases (Text.append_mark_inj hps.name hqs.name).mp hList
      with ⟨hName, hTypes⟩
    have hPieces :=
      Text.joined_inj hps.pieces hqs.pieces
        (List.append_cancel_right hTypes)
    refine ⟨String.toList_injective hName, ?_⟩
    rwa [List.map_inj_right fun _ _ =>
      String.toList_inj.mp] at hPieces
  · rintro ⟨rfl, hTypes⟩
    rw [methodSignature, methodSignature, hTypes]

namespace MethodDecl

/- A method whose signature can be read back. -/
def Readable (m : MethodDecl) : Prop :=
  ReadableSignature m.name
    (m.formals.map Parameter.type)

/- Readable methods are told apart by name and types. -/
theorem signature_inj
    {m n : MethodDecl}
    (hm : m.Readable)
    (hn : n.Readable) :
    m.signature = n.signature ↔
      m.name = n.name ∧
        m.formals.map Parameter.type =
          n.formals.map Parameter.type :=
  methodSignature_inj hm hn

end MethodDecl

end ScopeAnalysis

------------------------------------------------------------
-- Parts Of A Header
------------------------------------------------------------

namespace ScopeAnalysis

namespace MethodDecl

namespace Part

/- The identifier that a part brings. -/
def name : Part → String
| .param name _ => name
| .identifier name => name

/- The type that a part brings, if it is a parameter. -/
def type? : Part → Option String
| .param _ type => some type
| .identifier _ => none

/- The name that a part labels as one of a parameter. -/
def label? : Part → Option String
| .param name _ => some name
| .identifier _ => none

/- A part that is no parameter. -/
def isStray : Part → Bool
| .param _ _ => false
| .identifier _ => true

/- The types that parts bring, in order. -/
def types (parts : List Part) : List String :=
  parts.filterMap type?

/- The identifiers that parts bring, in order. -/
def names (parts : List Part) : List String :=
  parts.map name

/- How many parts are parameters. -/
def params (parts : List Part) : Nat :=
  parts.countP fun part => !part.isStray

/- How many parts are stray identifiers. -/
def strays (parts : List Part) : Nat :=
  parts.countP isStray

theorem length_types
    (parts : List Part) :
    (types parts).length = params parts := by
  rw [types, List.length_filterMap_eq_countP, params]
  congr 1
  funext part
  cases part <;> rfl

theorem length_labels
    (parts : List Part) :
    (parts.filterMap label?).length = params parts := by
  rw [List.length_filterMap_eq_countP, params]
  congr 1
  funext part
  cases part <;> rfl

/- A part is either a parameter or a stray identifier. -/
theorem length_names
    (parts : List Part) :
    (names parts).length = params parts + strays parts := by
  rw [names, List.length_map, params, strays,
    parts.length_eq_countP_add_countP isStray, Nat.add_comm]
  congr 2
  funext part
  cases part <;> rfl

end Part

/- Adding parts makes each of the three lists longer. -/
theorem foldl_add
    (parts : List Part)
    (m : MethodDecl) :
    parts.foldl add m =
      { m with
        paramNames :=
          m.paramNames ++ parts.filterMap Part.label?
        paramTypes := m.paramTypes ++ Part.types parts
        identifiers := m.identifiers ++ Part.names parts } := by
  induction parts generalizing m with
  | nil => simp [Part.types, Part.names]
  | cons part parts ih =>
      rw [List.foldl_cons, ih]
      cases part with
      | param name type =>
          simp [add, withParam, Part.types, Part.names,
            Part.label?, Part.type?, Part.name]
      | identifier name =>
          simp [add, withIdentifier, Part.types, Part.names,
            List.filterMap_cons, Part.label?, Part.type?,
            Part.name]

/- The header that is built from parts. -/
theorem ofParts_eq
    (name returnType : String)
    (access : Option String)
    (parts : List Part) :
    ofParts name returnType access parts =
      { name := name
        returnType := returnType
        access := access
        paramNames := parts.filterMap Part.label?
        paramTypes := Part.types parts
        identifiers := name :: Part.names parts } :=
  foldl_add parts (bare name returnType access)

end MethodDecl

end ScopeAnalysis

------------------------------------------------------------
-- Declared Types
------------------------------------------------------------

namespace ScopeAnalysis

namespace MethodDecl

/- Every type is paired where enough names are captured. -/
theorem types_parameters
    {m : MethodDecl}
    (h : m.paramTypes.length ≤ m.captured) :
    m.parameters.map Parameter.type = m.paramTypes := by
  have hLength :
      m.paramTypes.length ≤ (m.identifiers.drop 1).length := by
    rw [List.length_drop]
    exact h
  calc
    m.parameters.map Parameter.type
        = (((m.identifiers.drop 1).zip
            m.paramTypes).zipIdx 1).map
              (Prod.snd ∘ Prod.fst) := by
          rw [parameters, List.map_map]
          rfl
    _ = ((m.identifiers.drop 1).zip m.paramTypes).map
          Prod.snd := by
          rw [← List.map_map, List.zipIdx_map_fst]
    _ = m.paramTypes := List.map_snd_zip hLength

/- If a name is labelled, these are the types that count. -/
theorem types_formals
    {m : MethodDecl}
    (hLabel : m.hasParams)
    (h : m.paramTypes.length ≤ m.captured) :
    m.formals.map Parameter.type = m.paramTypes := by
  rw [formals, if_pos hLabel]
  exact types_parameters h

/- The parameters that count, numbered from one. -/
theorem formals_eq
    (m : MethodDecl) :
    m.formals =
      if m.paramNames = [] then
        []
      else
        ((m.identifiers.drop 1).zip m.paramTypes).mapIdx
          fun i pair => ⟨i + 1, pair.1, pair.2⟩ := by
  have hNumbered :
      m.parameters =
        ((m.identifiers.drop 1).zip m.paramTypes).mapIdx
          fun i pair => ⟨i + 1, pair.1, pair.2⟩ := by
    rw [parameters, List.zipIdx_eq_map_add,
      List.mapIdx_eq_zipIdx_map, List.map_map]
    apply List.map_congr_left
    intro entry _
    exact
      congrArg
        (fun index =>
          Parameter.mk index entry.1.1 entry.1.2)
        (Nat.add_comm 1 entry.2)
  unfold formals
  by_cases hNone : m.paramNames = []
  · simp [hasParams, hNone]
  · simp [hasParams, hNone, hNumbered]

variable (name returnType : String)
variable (access : Option String)
variable (parts : List Part)

/- A header captures one identifier for each of its parts. -/
theorem captured_ofParts :
    (ofParts name returnType access parts).captured =
      Part.params parts + Part.strays parts := by
  rw [ofParts_eq, captured, List.length_cons,
    Nat.add_sub_cancel, Part.length_names]

/- Without a label there are no types to pair. -/
theorem formals_ofParts :
    (ofParts name returnType access parts).formals =
      (ofParts name returnType access parts).parameters := by
  unfold formals
  split
  · rfl
  · rename_i hNone
    have hEmpty : Part.types parts = [] := by
      rw [← List.length_eq_zero_iff, Part.length_types,
        ← Part.length_labels, List.length_eq_zero_iff]
      simpa [ofParts_eq, hasParams] using hNone
    simp [ofParts_eq, parameters, hEmpty]

/-
  A header that is built from its parts declares the types
  that its parts bring.
-/
theorem types_formals_ofParts :
    (ofParts name returnType access parts).formals.map
        Parameter.type =
      (ofParts name returnType access parts).paramTypes := by
  rw [formals_ofParts]
  apply types_parameters
  rw [captured_ofParts, ofParts_eq, Part.length_types]
  exact Nat.le_add_right _ _

end MethodDecl

end ScopeAnalysis
