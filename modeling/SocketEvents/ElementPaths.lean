import SocketEvents.StoredNumbers

/-!
Paths that go on below an array of scalars. The next component is read with `std::stoi`, and
the getter returns from there, whatever follows in the component or in the path.
-/

namespace SocketEvents

open Execution Json

structure Json.ScalarsOf (kind : ElementType) (elements : List Json) : Prop where
  scalar : kind ≠ .eventArgs
  typed : ∀ item ∈ elements, jsonTypeToArgumentType item = kind.tag

structure ElementPath (platform : Platform) (tree : EventArgs) (names : List CString)
    (kind : ElementType) (elements : List Json) (further : List CString) : Prop where
  element : ∀ (i : Nat) item, further = [numeral i] → elements[i]? = some item →
    ∃ any, StoredAs platform item any ∧
      (getterOf platform kind (joinPath (names ++ further))).run tree =
        .ok (some ⟨memberPtr [] names, some i⟩) tree ∧
      tree.read ⟨memberPtr [] names, some i⟩ = some any
  null : (∀ i, i < elements.length → further ≠ [numeral i]) →
    ReturnsNull tree (getterOf platform kind (joinPath (names ++ further)))

def indexOf (platform : Platform) (key : CString) : Option Nat :=
  match stoi key with
  | .ok index => some (platform.toSizeT index)
  | .error _ => none

/-- A component that is read as an index within the array is its numeral and ends the path,
and no such numeral is beyond what `std::stoi` reads. -/
structure ExactSpelling (platform : Platform) (length : Nat) (further : List CString) : Prop where
  spelled : ∀ key back index, further = key :: back → indexOf platform key = some index →
    index < length → further = [numeral index]
  read : ∀ index < length, further = [numeral index] → index ≤ 2147483647

theorem indexOf_numeral (platform : Platform) (index : Nat) :
    indexOf platform (numeral index) = if index ≤ 2147483647 then some index else none := by
  rw [indexOf, stoi_numeral]
  by_cases small : index ≤ 2147483647
  · simp only [small, if_true, toSizeT_small platform small]
  · simp only [small, if_false]

section
variable {platform : Platform} {container : List (CString × Json)} {key : CString}
  {argument : Argument EventArgs}

theorem storedAs_of_convertTo {kind : ElementType} {item : Json} {any : AnyValue EventArgs}
    (typed : jsonTypeToArgumentType item = kind.tag) (converted : item.convertTo kind = .ok any) :
    StoredAs platform item any := by
  cases kind with
  | eventArgs => cases converted
  | string =>
      cases item <;> simp [jsonTypeToArgumentType, ElementType.tag] at typed
      exact Except.ok.inj converted ▸ .string _
  | bool =>
      cases item <;> simp [jsonTypeToArgumentType, ElementType.tag] at typed
      exact Except.ok.inj converted ▸ .boolean _
  | float =>
      cases item <;> simp [jsonTypeToArgumentType, ElementType.tag] at typed
      exact Except.ok.inj converted ▸ .float _
  | int32 =>
      cases item <;> simp [jsonTypeToArgumentType, ElementType.tag] at typed
      · exact Except.ok.inj converted ▸ .integer _
      · exact Except.ok.inj converted ▸ .unsigned _

theorem scalars_storedAs {kind : ElementType} {first : Json} {rest : List Json}
    (scalars : ScalarsOf kind (first :: rest))
    (stored : memberArgument platform (.object container) key (.array (first :: rest)) =
      some argument) :
    ∀ (i : Nat) item, (first :: rest)[i]? = some item → ∃ any, StoredAs platform item any ∧
      argument.value.element (some i) = some any := by
  intro index item found
  have starts := scalars.typed first (by simp)
  have typed := scalars.typed item (List.mem_of_getElem? found)
  rcases arrayArgument_built (arrayArgument_of_member stored) with
    ⟨unreal, _⟩ | ⟨other, _, same, built⟩
  · exact (kind.tag_ne_none (starts.symm.trans unreal)).elim
  · have sameKind : other = kind := ElementType.tag_injective (same.symm.trans starts)
    obtain ⟨any, converted, selected⟩ := built.converted index item found
    exact ⟨any, storedAs_of_convertTo typed (sameKind ▸ converted), selected⟩

end

structure BelowArray (platform : Platform) (tree : EventArgs) (names : List CString)
    (kind : ElementType) (elements : List Json) (key : CString) (back : List CString) : Prop where
  selects : ∀ index, indexOf platform key = some index → index < elements.length →
    (getterOf platform kind (joinPath (names ++ key :: back))).run tree =
      .ok (some ⟨memberPtr [] names, some index⟩) tree
  refuses : (∀ index, indexOf platform key = some index → elements.length ≤ index) →
    ReturnsNull tree (getterOf platform kind (joinPath (names ++ key :: back)))
  reads : ∀ (i : Nat) item, elements[i]? = some item → ∃ any, StoredAs platform item any ∧
    tree.read ⟨memberPtr [] names, some i⟩ = some any

section
variable {platform : Platform} {tree : EventArgs} {members : List (CString × Json)}
  {names : List CString} {kind : ElementType} {elements : List Json} {key : CString}
  {back : List CString}

theorem belowArray {first : Json} {rest : List Json}
    (wellFormed : (Json.object members).WellFormed) (plain : (Json.object members).PlainNames)
    (decoded : ofJson platform (.object members) = .ok tree) (nonempty : names ≠ [])
    (leads : (Json.object members).valueAt names = some (.array (first :: rest)))
    (scalars : ScalarsOf kind (first :: rest)) (belowPlain : ∀ name ∈ key :: back, PlainName name) :
    BelowArray platform tree names kind (first :: rest) key back := by
  have regular := (completed_filled wellFormed decoded).regular
  obtain ⟨container, holder, memberOf, continues⟩ :=
    walk_chain wellFormed plain (EventArgs.deref_nil tree) decoded nonempty leads
  obtain ⟨argument, stored, shape⟩ := memberOf.array
  have allPlain : ∀ name ∈ names ++ key :: back, PlainName name := by
    intro name member
    rcases List.mem_append.mp member with above | below
    · exact valueAt_plainNames plain leads name above
    · exact belowPlain name below
  have typed := scalars.typed first (by simp)
  have real : jsonTypeToArgumentType first ≠ .none := typed ▸ kind.tag_ne_none
  have ran := run_getterOf platform regular kind (joinPath (names ++ key :: back))
  rw [getKeyAsPath_joinPath _ allPlain, ← typed, continues argument stored,
    if_neg (shape.notScalar .args (by decide)), walk_array_same stored shape real] at ran
  refine ⟨?_, ?_, ?_⟩
  · intro index parsed inside
    rw [ran]
    cases read : stoi key with
    | error exception => simp [indexOf, read] at parsed
    | ok value =>
        simp only [indexOf, read, Option.some.injEq] at parsed
        simp only [parsed, List.length_cons] at inside ⊢
        simp only [inside, if_true]
  · intro outside
    rw [ReturnsNull, ran]
    cases read : stoi key with
    | error exception => rfl
    | ok value =>
        have beyond := outside (platform.toSizeT value) (by simp [indexOf, read])
        simp only [List.length_cons] at beyond
        simp only [Nat.not_lt.mpr beyond, if_false]
  · intro index item found
    obtain ⟨any, storedAs, selected⟩ :=
      scalars_storedAs scalars (memberOf.stored.symm.trans stored) index item found
    exact ⟨any, storedAs, (read_element stored _).trans selected⟩

theorem BelowArray.exactSpelling (below : BelowArray platform tree names kind elements key back)
    (exact : ElementPath platform tree names kind elements (key :: back)) :
    ExactSpelling platform elements.length (key :: back) := by
  have inside : ∀ {index}, index < elements.length → ∃ item, elements[index]? = some item :=
    fun small => ⟨_, List.getElem?_eq_getElem small⟩
  constructor
  · rintro other others index same parsed small
    obtain ⟨rfl, rfl⟩ := List.cons.inj same
    have ran := below.selects index parsed small
    by_cases numbered : ∃ i < elements.length, key :: back = [numeral i]
    · obtain ⟨i, smaller, spelled⟩ := numbered
      obtain ⟨item, found⟩ := inside smaller
      obtain ⟨_, _, result, _⟩ := exact.element i item spelled found
      rw [ran] at result
      simp only [EStateM.Result.ok.injEq, Option.some.injEq, ValuePtr.mk.injEq, true_and,
        and_true] at result
      exact result ▸ spelled
    · have null := exact.null fun i smaller spelled => numbered ⟨i, smaller, spelled⟩
      rw [ReturnsNull, ran] at null
      simp at null
  · intro index small same
    obtain ⟨item, found⟩ := inside small
    obtain ⟨_, _, result, _⟩ := exact.element index item same found
    have numbered : key = numeral index := (List.cons.inj same).1
    by_contra large
    have null := below.refuses (by simp [numbered, indexOf_numeral, large])
    rw [ReturnsNull, result] at null
    simp at null

theorem BelowArray.elementPath (below : BelowArray platform tree names kind elements key back)
    (exact : ExactSpelling platform elements.length (key :: back)) :
    ElementPath platform tree names kind elements (key :: back) := by
  constructor
  · intro index item same found
    obtain ⟨small, _⟩ := List.getElem?_eq_some_iff.mp found
    obtain ⟨any, storedAs, read⟩ := below.reads index item found
    have numbered : key = numeral index := (List.cons.inj same).1
    have parsed : indexOf platform key = some index := by
      rw [numbered, indexOf_numeral, if_pos (exact.read index small same)]
    exact ⟨any, storedAs, below.selects index parsed small, read⟩
  · intro different
    apply below.refuses
    intro index parsed
    by_contra small
    have inside : index < elements.length := by omega
    exact different index inside (exact.spelled key back index rfl parsed inside)

end

theorem elementPath_iff (platform : Platform) (members : List (CString × Json))
    (tree : EventArgs) (names : List CString) (kind : ElementType) (elements : List Json)
    (further : List CString) (wellFormed : (Json.object members).WellFormed)
    (plain : (Json.object members).PlainNames)
    (decoded : ofJson platform (.object members) = .ok tree) (nonempty : names ≠ [])
    (leads : (Json.object members).valueAt names = some (.array elements))
    (filled : elements ≠ []) (scalars : ScalarsOf kind elements) (below : further ≠ [])
    (belowPlain : ∀ name ∈ further, PlainName name) :
    ElementPath platform tree names kind elements further ↔
      ExactSpelling platform elements.length further := by
  obtain ⟨first, rest, rfl⟩ := List.exists_cons_of_ne_nil filled
  obtain ⟨key, back, rfl⟩ := List.exists_cons_of_ne_nil below
  have here : BelowArray platform tree names kind (first :: rest) key back :=
    belowArray wellFormed plain decoded nonempty leads scalars belowPlain
  exact ⟨here.exactSpelling, here.elementPath⟩

def elementSample : List (CString × Json) :=
  [(text "k", .array [.numberUnsigned 1, .numberUnsigned 2])]

def elementSampleTree : EventArgs :=
  .mk [(text "k", ⟨text "k", .int32Array [1, 2], some .int32, some true, 2⟩)]

theorem elementSample_scalars :
    ScalarsOf .int32 [.numberUnsigned 1, .numberUnsigned 2] :=
  ⟨by simp, by simp [jsonTypeToArgumentType, ElementType.tag]⟩

theorem elementPath_iff_sample :
    ElementPath .x64 elementSampleTree [text "k"] .int32 [.numberUnsigned 1, .numberUnsigned 2]
        [text "1"] ↔
      ExactSpelling .x64 [Json.numberUnsigned 1, .numberUnsigned 2].length [text "1"] :=
  elementPath_iff .x64 elementSample elementSampleTree [text "k"] .int32 _ [text "1"] (by decide)
    (by decide) rfl (by simp) rfl (by simp) elementSample_scalars (by simp) (by decide)

/-- `GetInt("k/0/x")` points at the element of `"k/0"`. -/
theorem trailing_component_ignored : ¬ ∀ platform members tree names kind elements further,
    (Json.object members).WellFormed → (Json.object members).PlainNames →
    ofJson platform (.object members) = .ok tree → names ≠ [] →
    (Json.object members).valueAt names = some (.array elements) → elements ≠ [] →
    ScalarsOf kind elements → further ≠ [] → (∀ name ∈ further, PlainName name) →
    ElementPath platform tree names kind elements further := by
  intro all
  have exact := all .x64 elementSample elementSampleTree [text "k"] .int32
    [.numberUnsigned 1, .numberUnsigned 2] [text "0", text "x"] (by decide) (by decide) rfl
    (by simp) rfl (by simp) elementSample_scalars (by simp) (by decide)
  have null := exact.null (by simp)
  have found : (getterOf .x64 .int32 (joinPath ([text "k"] ++ [text "0", text "x"]))).run
      elementSampleTree = .ok (some ⟨⟨[], text "k"⟩, some 0⟩) elementSampleTree := rfl
  rw [ReturnsNull, found] at null
  simp at null

end SocketEvents
