import SocketEvents.PathAgreement

/-!
What the queries say of an array member: that it is there, that it is an array, its length and
its elements. The constructor leaves an empty array out, as it does with null.
-/

namespace SocketEvents

open Execution Json

structure ArrayGetters (platform : Platform) (tree : EventArgs) (key : CString)
    (answer : ElementType → Option ArgumentPtr) : Prop where
  strings : (getStringArray platform key).run tree = .ok (answer .string) tree
  ints : (getIntArray platform key).run tree = .ok (answer .int32) tree
  floats : (getFloatArray platform key).run tree = .ok (answer .float) tree

structure ArrayStored (platform : Platform) (tree : EventArgs) (key : CString)
    (kind : ElementType) (elements : List Json) : Prop where
  contains : (containsKey platform key).run tree = .ok true tree
  isArray : ∃ argument, tree.find key = some argument ∧ argument.isArray = some true
  length : (getArrayLength platform key).run tree = .ok elements.length tree
  getters : ArrayGetters platform tree key fun element =>
    if element = kind then some ⟨[], key⟩ else none
  inOrder : ∀ (i : Nat) item, elements[i]? = some item → ∃ any, Represents item kind any ∧
    tree.read ⟨⟨[], key⟩, some i⟩ = some any
  noMore : ∀ i, elements.length ≤ i → tree.read ⟨⟨[], key⟩, some i⟩ = none

structure LeftOut (platform : Platform) (tree : EventArgs) (key : CString) : Prop where
  contains : (containsKey platform key).run tree = .ok false tree
  absent : tree.find key = none
  length : (getArrayLength platform key).run tree = .ok 0 tree
  getters : ArrayGetters platform tree key fun _ => none

section
variable {platform : Platform} {tree : EventArgs} {key : CString}

theorem run_getArrayValueIfSameType {argument : Argument EventArgs} {kind : ElementType}
    (element : ElementType) (found : (getArgumentWithPath platform key).run tree =
      .ok (some ⟨[], key⟩) tree) (stored : tree.argumentAt ⟨[], key⟩ = some argument)
    (consistent : argument.Consistent) (isArray : argument.isArray = some true)
    (typed : argument.type = some kind.tag) :
    (getArrayValueIfSameType platform element element.tag (getKeyAsPath key)).run tree =
      .ok (if element = kind then some ⟨[], key⟩ else none) tree := by
  have walked : (getArgumentWithPathAt platform [] (getKeyAsPath key)).run tree =
      .ok (some ⟨[], key⟩) tree := found
  by_cases same : element = kind
  · subst same
    cases consistent with
    | scalar type _ notArray _ _ => simp [notArray] at isArray
    | array type typed' _ wrapped _ =>
        rw [typed] at typed'
        have held := (argument.value.holdsArray_iff element).mpr (typed' ▸ wrapped)
        have full := argument.value.hasValue_of_arrayType wrapped
        simp [getArrayValueIfSameType, walked, run_readIsArray stored isArray,
          run_readType stored typed, getValueAsArray, run_readArgument stored, full, initialised,
          isArray, held]
  · have other : kind.tag ≠ element.tag := fun tags => same (ElementType.tag_injective tags).symm
    simp [getArrayValueIfSameType, walked, run_readIsArray stored isArray,
      run_readType stored typed, other, same]

theorem AnyValue.element_beyond {value : AnyValue EventArgs} {index : Nat}
    (beyond : value.allocated ≤ index) : value.element (some index) = none := by
  cases value <;> simp_all [allocated, element]

theorem leftOut_of_absent (regular : tree.Regular) (plain : PlainName key)
    (absent : tree.find key = none) : LeftOut platform tree key := by
  have found := run_getArgumentWithPath platform regular key
  rw [plain.component.getKeyAsPath, pathOutcome, absent] at found
  obtain ⟨contains, _, length⟩ := null_of_walker found
  have walked : (getArgumentWithPathAt platform [] (getKeyAsPath key)).run tree =
      .ok none tree := found
  refine ⟨contains, absent, length, ?_, ?_, ?_⟩
  · simp [getStringArray, getArrayValueIfSameType, walked]
  · simp [getIntArray, getArrayValueIfSameType, walked]
  · simp [getFloatArray, getArrayValueIfSameType, walked]

theorem arrayStored_of_arrayOf {argument : Argument EventArgs} {kind : ElementType}
    {elements : List Json} (regular : tree.Regular) (plain : PlainName key)
    (stored : tree.find key = some argument) (arrayOf : ArrayOf elements kind argument) :
    ArrayStored platform tree key kind elements := by
  have found := run_getArgumentWithPath platform regular key
  rw [plain.component.getKeyAsPath, pathOutcome, stored] at found
  have located : tree.argumentAt ⟨[], key⟩ = some argument := by
    simp [EventArgs.argumentAt, EventArgs.deref, stored]
  obtain ⟨contains, _, length, _⟩ := argument_of_walker found located
  have consistent := regular.consistent plain.component stored
  have getter : ∀ element : ElementType,
      (getArrayValueIfSameType platform element element.tag (getKeyAsPath key)).run tree =
        .ok (if element = kind then some ⟨[], key⟩ else none) tree := fun element =>
    run_getArrayValueIfSameType element found located consistent arrayOf.isArray arrayOf.typed
  rw [arrayOf.length] at length
  refine ⟨contains, ⟨argument, stored, arrayOf.isArray⟩, length,
    ⟨getter .string, getter .int32, getter .float⟩, ?_, ?_⟩
  · intro index item inside
    obtain ⟨any, represents, selected⟩ := arrayOf.represents index item inside
    exact ⟨any, represents, (read_element located _).trans selected⟩
  · intro index beyond
    rw [read_element located]
    apply AnyValue.element_beyond
    cases consistent with
    | scalar type _ notArray _ _ => simp [arrayOf.isArray] at notArray
    | array type _ _ _ allocated => exact allocated ▸ arrayOf.length ▸ beyond

end

theorem array_metadata (platform : Platform) (members : List (CString × Json)) (tree : EventArgs)
    (key : CString) (kind : ElementType) (elements : List Json)
    (wellFormed : (Json.object members).WellFormed)
    (decoded : ofJson platform (.object members) = .ok tree) (plain : PlainName key)
    (member : (key, .array elements) ∈ members) (uniform : AllOf kind elements) :
    (elements ≠ [] → ArrayStored platform tree key kind elements) ∧
      (elements = [] → LeftOut platform tree key) := by
  have filled := completed_filled wellFormed decoded
  have contents := filled.contents key plain.component
  rw [show (Json.object members).items = members from rfl,
    AssocMap.find_of_mem wellFormed.distinct member, Option.bind_some] at contents
  constructor
  · intro nonempty
    obtain ⟨first, rest, rfl⟩ := List.exists_cons_of_ne_nil nonempty
    obtain ⟨argument, kept, arrayOf⟩ := allOf_argument platform (.object members) key uniform
    exact arrayStored_of_arrayOf filled.regular plain (contents.trans kept) arrayOf
  · rintro rfl
    exact leftOut_of_absent filled.regular plain contents

def arraySample : List (CString × Json) :=
  [(text "ids", .array [.numberUnsigned 1, .numberUnsigned 2])]

theorem array_metadata_sample : ∃ tree, ofJson .x64 (.object arraySample) = .ok tree ∧
    ([Json.numberUnsigned 1, .numberUnsigned 2] ≠ [] → ArrayStored .x64 tree (text "ids") .int32
      [.numberUnsigned 1, .numberUnsigned 2]) ∧
    ([Json.numberUnsigned 1, .numberUnsigned 2] = [] → LeftOut .x64 tree (text "ids")) :=
  ⟨_, rfl, array_metadata .x64 arraySample _ (text "ids") .int32 _ (by decide) rfl (by decide)
    (by simp [arraySample]) ⟨by decide, by decide⟩⟩

theorem emptyArray_leftOut : ¬ ∀ platform members tree key kind elements,
    (Json.object members).WellFormed → (Json.object members).PlainNames →
    ofJson platform (.object members) = .ok tree → (key, .array elements) ∈ members →
    AllOf kind elements → (containsKey platform key).run tree = .ok true tree := by
  intro all
  have contains := all .x64 [(text "none", .array [])] .empty (text "none") .string [] (by decide)
    (by decide) rfl (by simp) rfl
  have missing : (containsKey .x64 (text "none")).run .empty = .ok false .empty := rfl
  simp [missing] at contains

end SocketEvents
