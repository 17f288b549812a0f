import SocketEvents.PathLookup

/-!
The integers a tree holds against those of the message. An integer is narrowed to `int32`, and
an array takes the type of its first element and converts the others to it.
-/

namespace SocketEvents

open Execution Json

namespace Json

def integer : Json → Option Int
  | .numberInteger value => some value.toInt
  | .numberUnsigned value => some value.toNat
  | _ => none

def select : Option Nat → Json → Option Json
  | none, json => some json
  | some index, .array elements => elements[index]?
  | some _, _ => none

/-- The part of a message that a place of its tree was filled from. -/
def source : ArgsPtr → Json → Option Json
  | [], json => some json
  | (name, element) :: rest, .object members =>
      (AssocMap.find name members).bind fun value => (value.select element).bind (source rest)
  | _ :: _, _ => none

/-- The value is an integer within `int32`, an array of these, or neither an integer nor an
array that starts with one. -/
structure KeepsIntegers (json : Json) : Prop where
  scalar : json.FitsInt
  array : ∀ first rest, json = .array (first :: rest) → first.isInteger = true →
    ∀ element ∈ first :: rest, element.isInteger = true ∧ element.FitsInt

def MembersKeepIntegers (json : Json) : Prop :=
  ∀ names value, names ≠ [] → json.valueAt names = some value → value.KeepsIntegers

theorem source_append (front back : ArgsPtr) (json : Json) :
    json.source (front ++ back) = (json.source front).bind (source back) := by
  induction front generalizing json with
  | nil => rfl
  | cons step rest ih =>
      cases json with
      | object members =>
          simp only [List.cons_append, source, Option.bind_assoc, funext ih]
      | _ => rfl

theorem source_names (names : List CString) (json : Json) :
    json.source (names.map fun name => (name, none)) = json.valueAt names := by
  induction names generalizing json with
  | nil => rfl
  | cons name rest ih =>
      cases json with
      | object members => simp [source, valueAt, select, ih]
      | _ => rfl

theorem valueAt_concat (names : List CString) (key : CString) (json : Json) :
    json.valueAt (names ++ [key]) = (json.valueAt names).bind (valueAt [key]) := by
  rw [← source_names, List.map_append, source_append, source_names]
  exact congrArg _ (funext fun inner => source_names [key] inner)

theorem source_member (names : List CString) (key : CString) (element : Option Nat)
    (json : Json) :
    json.source (names.map (fun name => (name, none)) ++ [(key, element)]) =
      (json.valueAt (names ++ [key])).bind (select element) := by
  have last : ∀ inner, source [(key, element)] inner =
      (inner.valueAt [key]).bind (select element) := by
    intro inner
    cases inner with
    | object members => cases found : AssocMap.find key members <;> simp [source, valueAt, found]
    | _ => rfl
  rw [source_append, source_names, valueAt_concat, Option.bind_assoc]
  exact congrArg _ (funext last)

theorem getInt32_exact {json : Json} {value : Int32} (converted : json.getInt32 = .ok value) :
    json.integer = some value.toInt ↔ json.isInteger = true ∧ json.FitsInt := by
  have lower := value.le_toInt
  have upper := value.toInt_lt
  cases json with
  | numberInteger source =>
      simp only [getInt32, Except.ok.injEq] at converted
      subst converted
      refine ⟨fun same => ⟨rfl, ?_⟩, fun fits => ?_⟩
      · simp only [integer, Option.some.injEq] at same
        simp only [FitsInt, intMin, intMax]
        omega
      · rw [toInt32_exact fits.2, integer]
  | numberUnsigned source =>
      simp only [getInt32, Except.ok.injEq] at converted
      subst converted
      refine ⟨fun same => ⟨rfl, ?_⟩, fun fits => ?_⟩
      · simp only [integer, Option.some.injEq] at same
        simp only [FitsInt, intMax]
        omega
      · rw [toUInt32_exact fits.2, integer]
  | _ => simp [integer, isInteger]

end Json

def ExactIntegers (json : Json) (tree : EventArgs) : Prop :=
  ∀ ptr stored, tree.read ptr = some (.int32 stored) →
    ∃ value, json.source ptr.toArgs = some value ∧ value.integer = some stored.toInt

def KeptExactly (value : Json) (any : AnyValue EventArgs) : Prop :=
  ∀ element stored, any.element element = some (.int32 stored) →
    ∃ part, value.select element = some part ∧ part.integer = some stored.toInt

inductive KeptAs (platform : Platform) : Json → AnyValue EventArgs → Prop
  | scalar (value : Json) (any : AnyValue EventArgs) : StoredAs platform value any →
      KeptAs platform value any
  | integers (first : Json) (rest : List Json) (values : List Int32) :
      first.isInteger = true →
      List.Forall₂ (fun element value => element.getInt32 = .ok value) (first :: rest) values →
      KeptAs platform (.array (first :: rest)) (.int32Array values)
  | others (first : Json) (rest : List Json) (any : AnyValue EventArgs) :
      first.isInteger = false →
      (∀ type, any.scalarType = some type ∨ any.arrayType = some type →
        type ≠ .args ∧ type ≠ .int32) →
      KeptAs platform (.array (first :: rest)) any

section
variable {platform : Platform} {container : List (CString × Json)} {key : CString}
  {argument : Argument EventArgs}

theorem ArrayBuilt.int32_values {elements : List Json}
    (built : ArrayBuilt key .int32 elements argument) :
    ∃ values, argument.value = .int32Array values ∧
      List.Forall₂ (fun element value => element.getInt32 = .ok value) elements values := by
  have wrapped := built.wrapped
  have count := built.allocated.symm.trans built.length
  have converted := built.converted
  cases value : argument.value with
  | int32Array values =>
      simp only [value, AnyValue.allocated] at count
      refine ⟨values, rfl, List.forall₂_iff_get.mpr ⟨count.symm, ?_⟩⟩
      intro index below inside
      obtain ⟨any, convert, selected⟩ :=
        converted index elements[index] (List.getElem?_eq_getElem below)
      simp only [value, AnyValue.element, List.getElem?_eq_getElem inside, Option.map_some,
        Option.some.injEq] at selected
      subst selected
      cases read : elements[index].getInt32 with
      | error exception => simp [convertTo, read, Except.map] at convert
      | ok kept => simpa [convertTo, read, Except.map] using convert
  | _ => simp [value, AnyValue.arrayType, ElementType.tag] at wrapped

theorem ArrayBuilt.keptAs {kind : ElementType} {first : Json} {rest : List Json}
    (built : ArrayBuilt key kind (first :: rest) argument) (scalar : kind ≠ .eventArgs)
    (typed : jsonTypeToArgumentType first = kind.tag) :
    KeptAs platform (.array (first :: rest)) argument.value := by
  by_cases integers : kind = .int32
  · subst integers
    obtain ⟨values, kept, related⟩ := built.int32_values
    rw [kept]
    refine .integers first rest values ?_ related
    cases first <;> simp_all [jsonTypeToArgumentType, ElementType.tag, Json.isInteger]
  · refine .others first rest _ ?_ ?_
    · cases kind <;> cases first <;>
        simp_all [jsonTypeToArgumentType, ElementType.tag, Json.isInteger]
    · have other : kind.tag ≠ .args ∧ kind.tag ≠ .int32 := by
        cases kind <;> simp_all [ElementType.tag]
      rintro type (scalarTyped | arrayTyped)
      · simp [argument.value.scalarType_of_arrayType built.wrapped] at scalarTyped
      · rw [built.wrapped, Option.some.injEq] at arrayTyped
        exact arrayTyped ▸ other

theorem memberArgument_keptAs {value : Json}
    (stored : memberArgument platform (.object container) key value = some argument) :
    KeptAs platform value argument.value := by
  cases value with
  | null => simp [memberArgument] at stored
  | string value =>
      simp only [memberArgument, Option.some.injEq] at stored
      exact stored ▸ .scalar _ _ (.string value)
  | boolean value =>
      simp only [memberArgument, Option.some.injEq] at stored
      exact stored ▸ .scalar _ _ (.boolean value)
  | numberInteger value =>
      simp only [memberArgument, Option.some.injEq] at stored
      exact stored ▸ .scalar _ _ (.integer value)
  | numberUnsigned value =>
      simp only [memberArgument, Option.some.injEq] at stored
      exact stored ▸ .scalar _ _ (.unsigned value)
  | numberFloat value =>
      simp only [memberArgument, Option.some.injEq] at stored
      exact stored ▸ .scalar _ _ (.float value)
  | object members =>
      simp only [memberArgument, Option.map_eq_some_iff] at stored
      obtain ⟨sub, decoded, rfl⟩ := stored
      cases built : ofJson platform (.object members) with
      | error fault => simp [built, Except.toOption] at decoded
      | ok tree =>
          simp only [built, Except.toOption, Option.some.injEq] at decoded
          exact .scalar _ _ (.object members sub (decoded ▸ built))
  | array elements =>
      cases elements with
      | nil => simp [memberArgument] at stored
      | cons first rest =>
          rcases arrayArgument_built (arrayArgument_of_member stored) with
            ⟨unreal, rfl⟩ | ⟨kind, scalar, typed, built⟩
          · refine .others first rest _ ?_
              (by simp [Argument.named, AnyValue.scalarType, AnyValue.arrayType])
            cases first <;> simp_all [jsonTypeToArgumentType, Json.isInteger]
          · exact built.keptAs scalar typed

theorem AnyValue.element_type {any inner : AnyValue EventArgs} {index : Nat}
    (selected : any.element (some index) = some inner) : inner.scalarType = any.arrayType := by
  cases any <;> simp only [AnyValue.element, Option.map_eq_some_iff, reduceCtorEq] at selected
  all_goals
    obtain ⟨_, _, rfl⟩ := selected
    rfl

theorem KeptAs.object {value : Json} {any : AnyValue EventArgs} {element : Option Nat}
    {sub : EventArgs} (kept : KeptAs platform value any)
    (selected : any.element element = some (.eventArgs sub)) :
    ∃ members, value = .object members ∧ element = none ∧
      ofJson platform (.object members) = .ok sub := by
  cases kept with
  | scalar _ _ storedAs =>
      cases element with
      | none =>
          simp only [AnyValue.element, Option.some.injEq] at selected
          subst selected
          cases storedAs with
          | object members _ decoded => exact ⟨members, rfl, rfl, decoded⟩
      | some index => cases storedAs <;> simp [AnyValue.element] at selected
  | integers first rest values _ _ => cases element <;> simp [AnyValue.element] at selected
  | others first rest _ _ plain =>
      cases element with
      | none =>
          simp only [AnyValue.element, Option.some.injEq] at selected
          exact ((plain .args (.inl (by rw [selected]; rfl))).1 rfl).elim
      | some index => exact ((plain .args (.inr (AnyValue.element_type selected).symm)).1 rfl).elim

theorem integer_exact_iff {value : Json} {kept : Int32} (isInteger : value.isInteger = true)
    (converted : value.getInt32 = .ok kept) :
    KeptExactly value (.int32 kept) ↔ value.KeepsIntegers := by
  have exact_iff := getInt32_exact converted
  constructor
  · intro exact
    obtain ⟨part, selected, same⟩ := exact none kept rfl
    simp only [select, Option.some.injEq] at selected
    subst selected
    refine ⟨(exact_iff.mp same).2, ?_⟩
    intro first rest isArray
    simp [isArray, Json.isInteger] at isInteger
  · intro keeps element stored selected
    cases element with
    | none =>
        simp only [AnyValue.element, Option.some.injEq, AnyValue.int32.injEq] at selected
        subst selected
        exact ⟨value, rfl, exact_iff.mpr ⟨isInteger, keeps.scalar⟩⟩
    | some index => simp [AnyValue.element] at selected

theorem plain_exact_iff {value : Json} {any : AnyValue EventArgs}
    (plain : ∀ element stored, any.element element ≠ some (.int32 stored))
    (keeps : value.KeepsIntegers) :
    KeptExactly value any ↔ value.KeepsIntegers :=
  ⟨fun _ => keeps, fun _ element stored selected => (plain element stored selected).elim⟩

theorem KeptAs.exact_iff {value : Json} {any : AnyValue EventArgs}
    (kept : KeptAs platform value any) : KeptExactly value any ↔ value.KeepsIntegers := by
  cases kept with
  | scalar _ _ storedAs =>
      cases storedAs with
      | integer value => exact integer_exact_iff rfl rfl
      | unsigned value => exact integer_exact_iff rfl rfl
      | _ =>
          refine plain_exact_iff ?_ ⟨trivial, by simp⟩
          rintro (_ | index) stored <;> simp [AnyValue.element]
  | integers first rest values starts related =>
      constructor
      · intro exact
        refine ⟨trivial, ?_⟩
        intro other others same _ element member
        rw [array.injEq] at same
        rw [← same] at member
        obtain ⟨index, below, rfl⟩ := List.mem_iff_getElem.mp member
        have belowToo : index < values.length := related.length_eq ▸ below
        obtain ⟨part, selected, integer⟩ := exact (some index) values[index]
          (by simp [AnyValue.element, belowToo])
        simp only [select, List.getElem?_eq_getElem below, Option.some.injEq] at selected
        subst selected
        exact (getInt32_exact (related.get below belowToo)).mp integer
      · rintro keeps (_ | index) stored selected
        · simp [AnyValue.element] at selected
        · simp only [AnyValue.element, Option.map_eq_some_iff, AnyValue.int32.injEq,
            exists_eq_right] at selected
          obtain ⟨below, rfl⟩ := List.getElem?_eq_some_iff.mp selected
          have belowToo : index < (first :: rest).length := related.length_eq ▸ below
          have part := keeps.array first rest rfl starts _ (List.getElem_mem belowToo)
          exact ⟨(first :: rest)[index], List.getElem?_eq_getElem belowToo,
            (getInt32_exact (related.get belowToo below)).mpr part⟩
  | others first rest _ starts plain =>
      refine plain_exact_iff ?_ ⟨trivial, ?_⟩
      · rintro (_ | index) stored selected
        · simp only [AnyValue.element, Option.some.injEq] at selected
          exact (plain .int32 (.inl (by rw [selected]; rfl))).2 rfl
        · exact (plain .int32 (.inr (AnyValue.element_type selected).symm)).2 rfl
      · intro other others same isInteger
        simp only [array.injEq, List.cons.injEq] at same
        simp [← same.1, starts] at isInteger

end

theorem toArgs_memberPtr (args : ArgsPtr) (names : List CString) (key : CString)
    (element : Option Nat) :
    ValuePtr.toArgs ⟨memberPtr args (names ++ [key]), element⟩ =
      args ++ (names.map (fun name => (name, none)) ++ [(key, element)]) := by
  induction names generalizing args with
  | nil => rfl
  | cons name rest ih =>
      have next := ih (args ++ [(name, none)])
      cases rest with
      | nil => simpa [memberPtr] using next
      | cons other others => simpa [memberPtr] using next

section
variable {platform : Platform} {members : List (CString × Json)} {tree : EventArgs}

theorem found_member {key : CString} {argument : Argument EventArgs}
    (wellFormed : (Json.object members).WellFormed) (plain : (Json.object members).PlainNames)
    (decoded : ofJson platform (.object members) = .ok tree)
    (found : tree.find key = some argument) :
    ∃ value, AssocMap.find key members = some value ∧ KeptAs platform value argument.value := by
  have filled := completed_filled wellFormed decoded
  obtain ⟨⟨_, value⟩, listed, rfl⟩ := List.mem_map.mp (filled.keys key argument found)
  have here := AssocMap.find_of_mem (items_distinct wellFormed) listed
  have contents := filled.contents _ (plain.name listed).component
  rw [here, found, Option.bind_some] at contents
  exact ⟨value, here, memberArgument_keptAs contents.symm⟩

theorem deref_names {args : ArgsPtr} {holder : EventArgs}
    (wellFormed : (Json.object members).WellFormed) (plain : (Json.object members).PlainNames)
    (decoded : ofJson platform (.object members) = .ok tree)
    (reached : tree.deref args = some holder) :
    ∃ names container, args = names.map (fun name => (name, none)) ∧
      (Json.object members).valueAt names = some (.object container) ∧
      ofJson platform (.object container) = .ok holder := by
  induction args generalizing members tree with
  | nil =>
      simp only [EventArgs.deref, Option.some.injEq] at reached
      exact ⟨[], members, rfl, rfl, reached ▸ decoded⟩
  | cons step rest ih =>
      obtain ⟨sub, below, reached⟩ := Option.bind_eq_some_iff.mp reached
      obtain ⟨argument, stored, selected⟩ := Option.bind_eq_some_iff.mp below
      obtain ⟨value, found, kept⟩ := found_member wellFormed plain decoded stored
      split at selected
      · rename_i inner same
        simp only [Option.some.injEq] at selected
        subst selected
        obtain ⟨container, rfl, noElement, subDecoded⟩ := kept.object same
        have inside := child_of_find found
        obtain ⟨names, last, rfl, leads, holds⟩ :=
          ih (wellFormed.child inside) (plain.child inside) subDecoded reached
        refine ⟨step.1 :: names, last, ?_, by simp [valueAt, found, leads], holds⟩
        simp [← noElement]
      · simp at selected

theorem MemberOf.keepsIntegers {ptr : ArgumentPtr} {value : Json}
    {container : List (CString × Json)} {holder : EventArgs}
    (memberOf : MemberOf platform tree ptr value container holder)
    (exact : ∀ argument, tree.argumentAt ptr = some argument →
      KeptExactly value argument.value) : value.KeepsIntegers := by
  have stored := memberOf.stored
  cases kept : memberArgument platform (.object container) ptr.key value with
  | some argument =>
      exact (memberArgument_keptAs kept).exact_iff.mp (exact argument (stored.trans kept))
  | none =>
      rw [kept] at stored
      cases value with
      | array elements =>
          cases elements with
          | nil => exact ⟨trivial, by simp⟩
          | cons first rest =>
              obtain ⟨argument, located, _⟩ := memberOf.array
              simp [stored] at located
      | null => exact ⟨trivial, by simp⟩
      | object inner => exact ⟨trivial, by simp⟩
      | _ => simp [memberArgument] at kept

theorem exactIntegers_iff (platform : Platform) (members : List (CString × Json))
    (tree : EventArgs) (wellFormed : (Json.object members).WellFormed)
    (plain : (Json.object members).PlainNames)
    (decoded : ofJson platform (.object members) = .ok tree) :
    ExactIntegers (.object members) tree ↔ (Json.object members).MembersKeepIntegers := by
  constructor
  · intro exact names value nonempty leads
    obtain ⟨container, holder, memberOf, _⟩ :=
      walk_chain wellFormed plain (EventArgs.deref_nil tree) decoded nonempty leads
    refine memberOf.keepsIntegers ?_
    intro argument located element stored selected
    obtain ⟨front, key, rfl⟩ := (List.eq_nil_or_concat' names).resolve_left nonempty
    obtain ⟨part, sourced, integer⟩ := exact ⟨memberPtr [] (front ++ [key]), element⟩ stored
      ((read_element located element).trans selected)
    rw [toArgs_memberPtr, List.nil_append, source_member, leads, Option.bind_some] at sourced
    exact ⟨part, sourced, integer⟩
  · rintro keeps ⟨⟨args, key⟩, element⟩ stored read
    obtain ⟨holder, reached, read⟩ := Option.bind_eq_some_iff.mp read
    obtain ⟨argument, found, selected⟩ := Option.bind_eq_some_iff.mp read
    obtain ⟨names, container, rfl, leads, holds⟩ := deref_names wellFormed plain decoded reached
    obtain ⟨value, member, kept⟩ := found_member
      (valueAt_closed WellFormed.child wellFormed leads)
      (valueAt_closed PlainNames.child plain leads) holds found
    have leadsOn : (Json.object members).valueAt (names ++ [key]) = some value := by
      simp [valueAt_concat, leads, valueAt, member]
    obtain ⟨part, selectedPart, integer⟩ :=
      kept.exact_iff.mpr (keeps _ value (by simp) leadsOn) element stored selected
    refine ⟨part, ?_, integer⟩
    rw [ValuePtr.toArgs, source_member, leadsOn, Option.bind_some, selectedPart]

end

theorem exactIntegers_iff_seven :
    ExactIntegers (.object [(text "n", .numberUnsigned 7)])
      (EventArgs.empty.insert (text "n") (scalarArgument (text "n") .int32 (.int32 7))) ↔
    (Json.object [(text "n", .numberUnsigned 7)]).MembersKeepIntegers :=
  exactIntegers_iff .x64 [(text "n", .numberUnsigned 7)]
    (EventArgs.empty.insert (text "n") (scalarArgument (text "n") .int32 (.int32 7)))
    (by decide) (by decide) (by rfl)

/-- 2147483648 is stored as -2147483648. -/
theorem largeInteger_altered : ¬ ∀ platform members tree, (Json.object members).WellFormed →
    (Json.object members).PlainNames → ofJson platform (.object members) = .ok tree →
    ExactIntegers (.object members) tree := by
  intro exact
  have decoded : ofJson .x64 (.object [(text "n", .numberUnsigned 2147483648)]) =
      .ok (EventArgs.empty.insert (text "n")
        (scalarArgument (text "n") .int32 (.int32 (-2147483648)))) := by rfl
  obtain ⟨value, sourced, integer⟩ := exact .x64 _ _ (by decide) (by decide) decoded
    ⟨⟨[], text "n"⟩, none⟩ (-2147483648) (by rfl)
  have same : value = .numberUnsigned 2147483648 := by
    simpa [source, ValuePtr.toArgs, AssocMap.find, select] using sourced.symm
  rw [same] at integer
  exact absurd integer (by decide)

end SocketEvents
