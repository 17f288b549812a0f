import SocketEvents.RoundTrip

/-!
Arrays of objects. The constructor builds one `EventArgs` for each element of the value it was
called with, where each element of the array itself was wanted. In an object there is nothing
to index, and in an array the elements are one level too high.
-/

namespace SocketEvents

open Execution Json

/-- The arguments of an array element, decoded into the argument that holds the array, and read
back by path as they are on their own. -/
structure ElementwiseDecoding (platform : Platform) (json : Json) (key : CString)
    (elements : List Json) (before : EventArgs) : Prop where
  stores : ∃ after trees,
    (addEntry platform json (key, .array elements)).run before = .ok () after ∧
    List.Forall₂ (fun element built => ofJson platform element = .ok built) elements trees ∧
    after.find key = some
      { key
        value := .eventArgsArray trees
        type := some .args
        isArray := some true
        length := elements.length }
  lookups : ∀ (tree : EventArgs) (index : Nat) (element : Json) (sub : EventArgs),
    ofJson platform json = .ok tree → elements[index]? = some element →
    ofJson platform element = .ok sub →
    Resolves tree (getEventArgs platform (joinPath [key, numeral index])) (.eventArgs sub) ∧
    ∀ getter path,
      (∀ value, Resolves tree (getterOf platform getter
          (joinPath [key, numeral index] ++ separator :: path)) value ↔
        Resolves sub (getterOf platform getter path) value) ∧
      (ReturnsNull tree (getterOf platform getter
          (joinPath [key, numeral index] ++ separator :: path)) ↔
        ReturnsNull sub (getterOf platform getter path))

theorem AnyValue.sizeOf_element {value : AnyValue EventArgs} {element : Option Nat}
    {sub : EventArgs} (selected : value.element element = some (.eventArgs sub)) :
    sizeOf sub < sizeOf value := by
  cases element with
  | none =>
      simp only [AnyValue.element, Option.some.injEq] at selected
      simp [selected]
  | some index =>
      cases value <;> simp [AnyValue.element] at selected
      have smaller := List.sizeOf_lt_of_mem (List.mem_of_getElem? selected)
      simp only [eventArgsArray.sizeOf_spec]
      omega

theorem EventArgs.sizeOf_child {args sub : EventArgs} {step : CString × Option Nat}
    (below : args.child step = some sub) : sizeOf sub < sizeOf args := by
  obtain ⟨argument, found, selected⟩ := Option.bind_eq_some_iff.mp below
  split at selected
  · rename_i inner same
    simp only [Option.some.injEq] at selected
    subst selected
    have inside := AnyValue.sizeOf_element same
    cases args with
    | mk entries =>
        have listed := List.sizeOf_lt_of_mem (AssocMap.mem_of_find found)
        cases argument
        simp only [Prod.mk.sizeOf_spec, Argument.mk.sizeOf_spec, EventArgs.mk.sizeOf_spec,
          EventArgs.argumentMap] at inside listed ⊢
        omega
  · simp at selected

section
variable {platform : Platform} {json : Json} {key : CString} {inner : List (CString × Json)}
  {rest : List Json} {before : EventArgs}

theorem run_addEntry_objects :
    (addEntry platform json (key, .array (.object inner :: rest))).run before =
      match eventArgsArray json (json.children.map (ofJson platform)) with
      | .ok trees => .ok () (before.insert key (objectsArgument json key trees))
      | .error fault => .error fault before := by
  have argument := arrayArgument_objects json (json.children.map (ofJson platform)) key inner
    (.array (.object inner :: rest))
  cases result : eventArgsArray json (json.children.map (ofJson platform)) with
  | ok trees =>
      rw [result] at argument
      simp [addEntry, addItem, argument, Except.map, writeArgument, EventArgs.insertAt]
  | error fault =>
      rw [result] at argument
      simp [addEntry, addItem, argument, Except.map]

theorem objects_inObject (container : List (CString × Json)) :
    (addEntry platform (.object container) (key, .array (.object inner :: rest))).run before =
      .error (.thrown (.typeError 305)) before :=
  run_addEntry_objects

theorem objects_inArray {container : List Json} {after : EventArgs}
    (ran : (addEntry platform (.array container) (key, .array (.object inner :: rest))).run
      before = .ok () after) :
    ∃ trees, List.Forall₂ (fun element built => ofJson platform element = .ok built)
        container trees ∧
      after.find key = some (objectsArgument (.array container) key trees) := by
  have each := eventArgsArray_mapM platform container
  rw [run_addEntry_objects, Json.children, each] at ran
  rcases mapM_cases (ofJson platform) container with ⟨trees, mapped, related⟩ |
    ⟨_, _, _, fault, _, _, _, failed⟩
  · simp only [mapped, EStateM.Result.ok.injEq, true_and] at ran
    exact ⟨trees, related, by simp [← ran, EventArgs.find_insert]⟩
  · simp [failed] at ran

end

theorem numberedFrom_get {first : Nat} {elements : List Json} {index : Nat} {element : Json}
    (found : elements[index]? = some element) :
    (numeral (first + index), element) ∈ numberedFrom first elements := by
  induction elements generalizing first index with
  | nil => simp at found
  | cons head rest ih =>
      cases index with
      | zero =>
          simp only [List.getElem?_cons_zero, Option.some.injEq] at found
          simp [numberedFrom, found]
      | succ index =>
          have later : (numeral (first + 1 + index), element) ∈ numberedFrom (first + 1) rest :=
            ih (by simpa using found)
          rw [Nat.add_right_comm] at later
          exact List.mem_cons_of_mem _ later

theorem child_of_array {platform : Platform} {elements : List Json} {tree sub : EventArgs}
    {index : Nat} {members : List (CString × Json)}
    (wellFormed : (Json.array elements).WellFormed)
    (decoded : ofJson platform (.array elements) = .ok tree)
    (found : elements[index]? = some (.object members))
    (element : ofJson platform (.object members) = .ok sub) :
    tree.child (numeral index, none) = some sub := by
  have contents := (completed_filled wellFormed decoded).contents (numeral index)
    (numeral_plain index).component
  have listed : (numeral (0 + index), Json.object members) ∈ numberedFrom 0 elements :=
    numberedFrom_get found
  rw [Nat.zero_add] at listed
  rw [AssocMap.find_of_mem (items_distinct wellFormed) listed, Option.bind_some,
    object_argument _ _ element] at contents
  simp [EventArgs.child, contents, scalarArgument, AnyValue.element]

theorem never_elementwiseDecoding (platform : Platform) (json : Json) (key : CString)
    (elements : List Json) (before : EventArgs) (wellFormed : json.WellFormed)
    (member : (key, Json.array elements) ∈ json.items) (nonempty : elements ≠ [])
    (objects : ∀ element ∈ elements, ∃ members, element = .object members) :
    ¬ ElementwiseDecoding platform json key elements before := by
  rintro ⟨⟨after, trees, ran, decoded, stored⟩, _⟩
  obtain ⟨first, rest, rfl⟩ := List.exists_cons_of_ne_nil nonempty
  obtain ⟨inner, rfl⟩ := objects first (by simp)
  cases json with
  | object container => simp [objects_inObject] at ran
  | array container =>
      -- the container is decoded in place of the array, one of whose elements the array is
      obtain ⟨built, decodedContainer, kept⟩ := objects_inArray ran
      rw [stored] at kept
      simp only [objectsArgument, Option.some.injEq, Argument.mk.injEq,
        AnyValue.eventArgsArray.injEq] at kept
      obtain ⟨-, rfl, -, -, length⟩ := kept
      have inside : Json.array (.object inner :: rest) ∈ container := by
        rw [← numberedFrom_snd 0 container]
        exact List.mem_map_of_mem (f := Prod.snd) member
      obtain ⟨index, below, here⟩ := List.mem_iff_getElem.mp inside
      have belowToo : index < (Json.object inner :: rest).length := by
        rw [length]
        exact below
      have belowTrees : index < trees.length := decodedContainer.length_eq ▸ below
      have whole : ofJson platform (.array (.object inner :: rest)) = .ok trees[index] :=
        here ▸ decodedContainer.get below belowTrees
      have part := decoded.get belowToo belowTrees
      obtain ⟨members, isObject⟩ := objects _ (List.getElem_mem belowToo)
      simp only [List.get_eq_getElem] at part
      rw [isObject] at part
      have child := child_of_array (wellFormed.child inside) whole
        (List.getElem?_eq_some_iff.mpr ⟨belowToo, isObject⟩) part
      exact Nat.lt_irrefl _ (EventArgs.sizeOf_child child)
  | _ => simp [items] at member

def objectsMembers : List (CString × Json) :=
  [(text "k", .array [.object [(text "x", .numberUnsigned 1)]])]

theorem never_elementwiseDecoding_inObject :
    ¬ ElementwiseDecoding .x64 (.object objectsMembers) (text "k")
      [.object [(text "x", .numberUnsigned 1)]] .empty :=
  never_elementwiseDecoding .x64 (.object objectsMembers) (text "k")
    [.object [(text "x", .numberUnsigned 1)]] .empty (by decide) (List.mem_singleton.mpr rfl)
    (by decide) (by simp)

/-- The constructor throws on an object that holds an array of one object. -/
theorem objects_refused : ¬ ∀ platform json key elements before, json.WellFormed →
    (key, Json.array elements) ∈ json.items → elements ≠ [] →
    (∀ element ∈ elements, ∃ members, element = .object members) →
    ElementwiseDecoding platform json key elements before := by
  intro elementwise
  obtain ⟨⟨after, trees, ran, _⟩, _⟩ := elementwise .x64 (.object objectsMembers) (text "k")
    [.object [(text "x", .numberUnsigned 1)]] .empty (by decide) (List.mem_singleton.mpr rfl)
    (by decide) (by simp)
  simp [objects_inObject] at ran

end SocketEvents
