import SocketEvents.DecodeLoop

/-!
Decoding an object and looking a member up by its path gives the member back. The objects are
those with plain names, integers that fit an `int`, and arrays of scalars of one kind.
-/

namespace SocketEvents

open Execution Json

def intMin : Int := -2147483648

def intMax : Int := 2147483647

namespace Json

def isFloat : Json → Bool
  | .numberFloat _ => true
  | _ => false

def isInteger : Json → Bool
  | .numberInteger _ => true
  | .numberUnsigned _ => true
  | _ => false

def FitsInt : Json → Prop
  | .numberInteger value => intMin ≤ value.toInt ∧ value.toInt ≤ intMax
  | .numberUnsigned value => (value.toNat : Int) ≤ intMax
  | _ => True

def Homogeneous : Json → Prop
  | .array elements => elements.all isString = true ∨ elements.all isInteger = true ∨
      elements.all isFloat = true ∨ elements.all isBoolean = true
  | _ => True

instance : (json : Json) → Decidable json.FitsInt
  | .numberInteger _ => inferInstanceAs (Decidable (_ ∧ _))
  | .numberUnsigned _ => inferInstanceAs (Decidable (_ ≤ _))
  | .null | .boolean _ | .numberFloat _ | .string _ | .array _ | .object _ => .isTrue trivial

instance : (json : Json) → Decidable json.Homogeneous
  | .array _ => inferInstanceAs (Decidable (_ ∨ _))
  | .null | .boolean _ | .numberInteger _ | .numberUnsigned _ | .numberFloat _ | .string _
  | .object _ => .isTrue trivial

/-- Names, integers and arrays at every depth are as a lookup by path needs them. -/
def Plain (json : Json) : Prop :=
  ∀ value ∈ json.subvalues, (∀ name ∈ value.memberNames, PlainName name) ∧ value.FitsInt ∧
    value.Homogeneous

instance (json : Json) : Decidable json.Plain :=
  inferInstanceAs (Decidable (∀ value ∈ json.subvalues, _))

def valueAt : List CString → Json → Option Json
  | [], json => some json
  | name :: rest, .object members => (AssocMap.find name members).bind (valueAt rest)
  | _ :: _, _ => none

theorem Plain.child {json child : Json} (plain : json.Plain) (member : child ∈ json.children) :
    child.Plain :=
  fun value inside => plain value (subvalues_of_child member inside)

theorem Plain.self {json : Json} (plain : json.Plain) :
    (∀ name ∈ json.memberNames, PlainName name) ∧ json.FitsInt ∧ json.Homogeneous :=
  plain json (self_mem_subvalues json)

theorem Plain.names {json : Json} (plain : json.Plain) : json.PlainNames :=
  fun value inside => (plain value inside).1

theorem Homogeneous.elementsConvert {elements : List Json}
    (homogeneous : (Json.array elements).Homogeneous) :
    (Json.array elements).elementsConvert = true ∧
      (Json.array elements).holdsObjects = false := by
  have weaken : ∀ {stronger weaker : Json → Bool},
      (∀ json, stronger json = true → weaker json = true) →
      ∀ {list : List Json}, list.all stronger = true → list.all weaker = true := by
    intro stronger weaker implies list all
    rw [List.all_eq_true] at all ⊢
    exact fun json member => implies json (all json member)
  cases elements with
  | nil => exact ⟨rfl, rfl⟩
  | cons first rest =>
      rcases homogeneous with all | all | all | all
      all_goals
        simp only [List.all_cons, Bool.and_eq_true] at all
        obtain ⟨kind, others⟩ := all
        cases first <;> simp [isString, isInteger, isFloat, isBoolean] at kind
      · exact ⟨others, rfl⟩
      · exact ⟨weaken (fun json => by cases json <;> simp [isInteger, isArithmetic]) others, rfl⟩
      · exact ⟨weaken (fun json => by cases json <;> simp [isInteger, isArithmetic]) others, rfl⟩
      · exact ⟨weaken (fun json => by cases json <;> simp [isFloat, isArithmetic]) others, rfl⟩
      · exact ⟨others, rfl⟩

theorem Plain.completes {json : Json} (plain : json.Plain)
    (isObject : ∃ members, json = .object members) : Completes json := by
  induction json using Json.induction with
  | step json ih =>
      obtain ⟨members, rfl⟩ := isObject
      have names := plain.self.1
      rw [completes_iff]
      intro before entry after split
      have member : entry ∈ members := by
        have same : members = before ++ entry :: after := split
        simp [same]
      have inside : entry.2 ∈ (Json.object members).children :=
        List.mem_map.mpr ⟨entry, member, rfl⟩
      have converts : entry.2.elementsConvert = true ∧ entry.2.holdsObjects = false := by
        have homogeneous := (plain.child inside).self.2.2
        cases value : entry.2 with
        | array elements =>
            rw [value] at homogeneous
            exact homogeneous.elementsConvert
        | _ => exact ⟨rfl, rfl⟩
      refine ⟨?_, converts.1, ?_, by simp [converts.2]⟩
      · intro _
        have component := (names entry.1 (List.mem_map.mpr ⟨entry, member, rfl⟩)).component
        simp [SafeName, component.getKeyAsPath]
      · intro inner same
        exact same ▸ ih entry.2 inside (plain.child inside) ⟨inner, same⟩

end Json

section
variable {platform : Platform} {tree : EventArgs}

theorem completed_filled {json : Json} (wellFormed : json.WellFormed)
    (completed : ofJson platform json = .ok tree) : Filled platform json json.items tree :=
  ((ofJson_settled platform json wellFormed).of_ok completed).1

def memberPtr : ArgsPtr → List CString → ArgumentPtr
  | args, [] => ⟨args, []⟩
  | args, [name] => ⟨args, name⟩
  | args, name :: next :: rest => memberPtr (args ++ [(name, none)]) (next :: rest)

theorem valueAt_closed {holds : Json → Prop} {names : List CString} {json value : Json}
    (closed : ∀ {json child}, holds json → child ∈ json.children → holds child)
    (initial : holds json) (leads : json.valueAt names = some value) : holds value := by
  induction names generalizing json with
  | nil =>
      simp only [valueAt, Option.some.injEq] at leads
      exact leads ▸ initial
  | cons name rest ih =>
      cases json with
      | object members =>
          simp only [valueAt, Option.bind_eq_some_iff] at leads
          obtain ⟨first, found, leads⟩ := leads
          exact ih (closed initial (child_of_find found)) leads
      | _ => simp [valueAt] at leads

structure MemberOf (platform : Platform) (tree : EventArgs) (ptr : ArgumentPtr) (value : Json)
    (container : List (CString × Json)) (holder : EventArgs) : Prop where
  wellFormed : (Json.object container).WellFormed
  decoded : ofJson platform (.object container) = .ok holder
  member : (ptr.key, value) ∈ container
  stored : tree.argumentAt ptr = memberArgument platform (.object container) ptr.key value

theorem memberOf_find {members : List (CString × Json)} {value : Json} {args : ArgsPtr}
    {holder : EventArgs} {name : CString} (wellFormed : (Json.object members).WellFormed)
    (plain : (Json.object members).PlainNames) (reached : tree.deref args = some holder)
    (decoded : ofJson platform (.object members) = .ok holder)
    (found : AssocMap.find name members = some value) :
    MemberOf platform tree ⟨args, name⟩ value members holder := by
  have member := AssocMap.mem_of_find found
  refine ⟨wellFormed, decoded, member, ?_⟩
  have contents := (completed_filled wellFormed decoded).contents name (plain.name member).component
  simp only [Json.items] at contents
  simp [EventArgs.argumentAt, reached, contents, found]

theorem MemberOf.enter {ptr : ArgumentPtr} {inner container : List (CString × Json)}
    {holder : EventArgs} (memberOf : MemberOf platform tree ptr (.object inner) container holder) :
    ∃ sub, ofJson platform (.object inner) = .ok sub ∧
      tree.argumentAt ptr = some (scalarArgument ptr.key .args (.eventArgs sub)) ∧
      tree.deref (ptr.args ++ [(ptr.key, none)]) = some sub := by
  have inside := child_of_member memberOf.member
  have settled := ofJson_settled platform (.object container) memberOf.wellFormed
  have entries := (completes_iff _).mp (settled.of_ok memberOf.decoded).2
  obtain ⟨before, after, split⟩ := List.append_of_mem memberOf.member
  have completes := (entries before _ after split).object inner rfl
  obtain ⟨sub, decoded, _⟩ := (ofJson_settled platform (.object inner)
    (memberOf.wellFormed.child inside)).exists_ok completes
  have stored := memberOf.stored
  rw [object_argument (.object container) ptr.key decoded] at stored
  refine ⟨sub, decoded, stored, ?_⟩
  obtain ⟨_, same, located⟩ := Option.bind_eq_some_iff.mp stored
  rw [EventArgs.deref_append, same]
  simp only [Option.bind_some, EventArgs.deref, EventArgs.child, located]
  rfl

theorem walk_chain {names : List CString} {members : List (CString × Json)} {value : Json}
    {args : ArgsPtr} {holder : EventArgs}
    (wellFormed : (Json.object members).WellFormed) (plain : (Json.object members).PlainNames)
    (reached : tree.deref args = some holder)
    (decoded : ofJson platform (.object members) = .ok holder) (nonempty : names ≠ [])
    (leads : (Json.object members).valueAt names = some value) :
    ∃ container inner, MemberOf platform tree (memberPtr args names) value container inner ∧
      ∀ argument, tree.argumentAt (memberPtr args names) = some argument →
        ∀ type rest lastArg, walk platform tree type (names ++ rest) (some args) lastArg =
          walk platform tree type rest
            (if argument.value.scalarType = some .args then
              some (ValuePtr.toArgs ⟨memberPtr args names, none⟩) else none)
            (some (memberPtr args names)) := by
  -- each name but the last enters an object, whose tree takes the place of `holder`
  induction names generalizing members args holder with
  | nil => exact (nonempty rfl).elim
  | cons name names ih =>
      simp only [valueAt, Option.bind_eq_some_iff] at leads
      obtain ⟨first, found, leads⟩ := leads
      have memberOf := memberOf_find wellFormed plain reached decoded found
      cases names with
      | nil =>
          simp only [valueAt, Option.some.injEq] at leads
          subst leads
          refine ⟨members, holder, memberOf, ?_⟩
          intro argument kept type rest lastArg
          exact walk_found kept rest lastArg
      | cons next rest =>
          cases first with
          | object inner =>
              have inside := child_of_find found
              obtain ⟨sub, subDecoded, stored, below⟩ := memberOf.enter
              obtain ⟨container, last, here, continues⟩ :=
                ih (wellFormed.child inside) (plain.child inside) below subDecoded (by simp) leads
              refine ⟨container, last, here, ?_⟩
              intro argument kept type tail lastArg
              rw [List.cons_append, walk_found stored]
              exact continues argument kept type tail (some ⟨args, name⟩)
          | _ => simp [valueAt] at leads

end

def getterOf (platform : Platform) : ElementType → CString → Lookup (Option ValuePtr)
  | .string => getString platform
  | .int32 => getInt platform
  | .float => getFloat platform
  | .bool => getBool platform
  | .eventArgs => getEventArgs platform

def Resolves (tree : EventArgs) (call : Lookup (Option ValuePtr)) (value : AnyValue EventArgs) :
    Prop :=
  ∃ ptr, call.run tree = .ok (some ptr) tree ∧ tree.read ptr = some value

def ReturnsNull (tree : EventArgs) (call : Lookup (Option ValuePtr)) : Prop :=
  call.run tree = .ok none tree

/-- The stored value that stands for a scalar of a message, and its type. -/
inductive Represents : Json → ElementType → AnyValue EventArgs → Prop
  | string (value : CString) : Represents (.string value) .string (.string value)
  | boolean (value : Bool) : Represents (.boolean value) .bool (.bool value)
  | float (value : Float) : Represents (.numberFloat value) .float (.float value.toFloat32)
  | integer (value : Int64) (stored : Int32) : stored.toInt = value.toInt →
      Represents (.numberInteger value) .int32 (.int32 stored)
  | unsigned (value : UInt64) (stored : Int32) : stored.toInt = value.toNat →
      Represents (.numberUnsigned value) .int32 (.int32 stored)

theorem run_getterOf {tree : EventArgs} (platform : Platform) (regular : tree.Regular)
    (element : ElementType) (key : CString) :
    (getterOf platform element key).run tree =
      .ok (walk platform tree element.tag (getKeyAsPath key) (some []) none) tree := by
  have state : WalkState tree (some []) none :=
    walkState_args (EventArgs.deref_nil tree) regular (by simp)
  have run := run_getValueIfSameTypeFrom platform (containsKeyAt_answers platform) element
    (getKeyAsPath key) (getKeyAsPath_components key) state
  cases element <;> exact run

/-! Scalars -/

theorem toInt32_exact {value : Int64} (fits : (Json.numberInteger value).FitsInt) :
    value.toInt32.toInt = value.toInt := by
  simp only [FitsInt, intMin, intMax] at fits
  rw [Int64.toInt_toInt32]
  exact Int.bmod_eq_of_le (by omega) (by omega)

theorem toUInt32_exact {value : UInt64} (fits : (Json.numberUnsigned value).FitsInt) :
    value.toUInt32.toInt32.toInt = value.toNat := by
  simp only [FitsInt, intMax] at fits
  have bits : value.toUInt32.toInt32.toInt = value.toUInt32.toBitVec.toInt := rfl
  have kept : value.toUInt32.toBitVec.toNat = value.toNat % 2 ^ 32 := value.toNat_toUInt32
  rw [bits, BitVec.toInt_eq_toNat_bmod, kept, Nat.mod_eq_of_lt (by omega)]
  exact Int.bmod_eq_of_le (by omega) (by omega)

theorem Represents.scalarType {json : Json} {element : ElementType} {any : AnyValue EventArgs}
    (represents : Represents json element any) :
    any.scalarType = some element.tag ∧ element ≠ .eventArgs := by
  cases represents <;> simp [AnyValue.scalarType, ElementType.tag]

def Json.isScalar : Json → Bool
  | .null => false
  | .array _ => false
  | .object _ => false
  | _ => true

theorem scalar_argument {platform : Platform} {container value : Json} {key : CString}
    (scalar : value.isScalar = true) (fits : value.FitsInt) :
    ∃ element any, Represents value element any ∧
      memberArgument platform container key value =
        some (scalarArgument key element.tag any) := by
  cases value with
  | string value => exact ⟨_, _, .string value, rfl⟩
  | boolean value => exact ⟨_, _, .boolean value, rfl⟩
  | numberFloat value => exact ⟨_, _, .float value, rfl⟩
  | numberInteger value => exact ⟨_, _, .integer value _ (toInt32_exact fits), rfl⟩
  | numberUnsigned value => exact ⟨_, _, .unsigned value _ (toUInt32_exact fits), rfl⟩
  | _ => simp [isScalar] at scalar

theorem ElementType.tag_injective {first second : ElementType} (same : first.tag = second.tag) :
    first = second := by
  cases first <;> cases second <;> simp [tag] at same ⊢

/-! Arrays -/

structure ArrayOf (elements : List Json) (element : ElementType)
    (argument : Argument EventArgs) : Prop where
  scalar : element ≠ .eventArgs
  typed : argument.type = some element.tag
  isArray : argument.isArray = some true
  notObject : argument.value.scalarType = none
  length : argument.length = elements.length
  represents : ∀ (i : Nat) item, elements[i]? = some item → ∃ any,
    Represents item element any ∧ argument.value.element (some i) = some any

theorem setValueAsArray_arrayOf {T : Type} {get : Json → Except Exception T}
    {pred : Json → Bool} (element : ElementType) (wrap : List T → AnyValue EventArgs)
    (one : T → AnyValue EventArgs) {elements : List Json} (converts : Converts get pred)
    (scalar : element ≠ .eventArgs) (notObject : ∀ values, (wrap values).scalarType = none)
    (select : ∀ values index, (wrap values).element (some index) = values[index]?.map one)
    (represents : ∀ item ∈ elements, ∀ value, get item = .ok value →
      Represents item element (one value))
    (all : elements.all pred = true) (key : CString) :
    ∃ argument, (Argument.named key).setValueAsArray get wrap (.array elements) element.tag =
      .ok argument ∧ ArrayOf elements element argument := by
  rcases setValueAsArray_cases converts wrap element.tag key elements with
    ⟨values, related, result, _⟩ | ⟨_, _, _, failed⟩
  · refine ⟨_, result, ⟨scalar, rfl, rfl, notObject values, related.length_eq.symm, ?_⟩⟩
    intro index item found
    obtain ⟨below, rfl⟩ := List.getElem?_eq_some_iff.mp found
    have inside : index < values.length := related.length_eq ▸ below
    have converted := related.get below inside
    refine ⟨one values[index], represents _ (List.getElem_mem below) _ converted, ?_⟩
    simp [select, inside]
  · simp [failed] at all

section
variable {elements : List Json}

theorem all_of_all {stronger weaker : Json → Bool}
    (implies : ∀ json, stronger json = true → weaker json = true)
    (all : elements.all stronger = true) : elements.all weaker = true :=
  List.all_eq_true.mpr fun json member => implies json (List.all_eq_true.mp all json member)

theorem stringArray_arrayOf (all : elements.all isString = true) (key : CString) :
    ∃ argument, (Argument.named key).setValueAsArray Json.getString .stringArray
      (.array elements) .string = .ok argument ∧ ArrayOf elements .string argument := by
  refine setValueAsArray_arrayOf .string .stringArray .string getString_converts (by simp)
    (fun _ => rfl) (fun _ _ => rfl) ?_ all key
  intro item member value converted
  cases item <;> simp [Json.getString] at converted
  exact converted ▸ .string _

theorem int32Array_arrayOf (all : elements.all isInteger = true)
    (fits : ∀ item ∈ elements, item.FitsInt) (key : CString) :
    ∃ argument, (Argument.named key).setValueAsArray Json.getInt32 .int32Array
      (.array elements) .int32 = .ok argument ∧ ArrayOf elements .int32 argument := by
  refine setValueAsArray_arrayOf .int32 .int32Array .int32 getInt32_converts (by simp)
    (fun _ => rfl) (fun _ _ => rfl) ?_
    (all_of_all (fun json => by cases json <;> simp [isInteger, isArithmetic]) all) key
  intro item member value converted
  have kind := List.all_eq_true.mp all item member
  have fitting := fits item member
  cases item <;> simp [isInteger] at kind
  · simp only [Json.getInt32, Except.ok.injEq] at converted
    exact converted ▸ .integer _ _ (toInt32_exact fitting)
  · simp only [Json.getInt32, Except.ok.injEq] at converted
    exact converted ▸ .unsigned _ _ (toUInt32_exact fitting)

theorem floatArray_arrayOf (all : elements.all isFloat = true) (key : CString) :
    ∃ argument, (Argument.named key).setValueAsArray Json.getFloat .floatArray
      (.array elements) .float = .ok argument ∧ ArrayOf elements .float argument := by
  refine setValueAsArray_arrayOf .float .floatArray .float getFloat_converts (by simp)
    (fun _ => rfl) (fun _ _ => rfl) ?_
    (all_of_all (fun json => by cases json <;> simp [isFloat, isArithmetic]) all) key
  intro item member value converted
  have kind := List.all_eq_true.mp all item member
  cases item <;> simp [isFloat] at kind
  simp only [Json.getFloat, Except.ok.injEq] at converted
  exact converted ▸ .float _

theorem boolArray_arrayOf (all : elements.all isBoolean = true) (key : CString) :
    ∃ argument, (Argument.named key).setValueAsArray Json.getBool .boolArray
      (.array elements) .bool = .ok argument ∧ ArrayOf elements .bool argument := by
  refine setValueAsArray_arrayOf .bool .boolArray .bool getBool_converts (by simp)
    (fun _ => rfl) (fun _ _ => rfl) ?_ all key
  intro item member value converted
  cases item <;> simp [Json.getBool] at converted
  exact converted ▸ .boolean _

end

def Json.AllOf : ElementType → List Json → Prop
  | .string, elements => elements.all isString = true
  | .int32, elements => elements.all isInteger = true ∧ ∀ item ∈ elements, item.FitsInt
  | .float, elements => elements.all isFloat = true
  | .bool, elements => elements.all isBoolean = true
  | .eventArgs, _ => False

theorem allOf_argument (platform : Platform) (container : Json) {kind : ElementType}
    {first : Json} {rest : List Json} (key : CString) (uniform : AllOf kind (first :: rest)) :
    ∃ argument, memberArgument platform container key (.array (first :: rest)) =
      some argument ∧ ArrayOf (first :: rest) kind argument := by
  cases kind with
  | string =>
      obtain ⟨argument, result, arrayOf⟩ := stringArray_arrayOf uniform key
      have starts := List.all_eq_true.mp uniform first (by simp)
      refine ⟨argument, ?_, arrayOf⟩
      cases first <;> simp [isString] at starts
      simp [memberArgument, arrayArgument, jsonTypeToArgumentType, result, Except.mapError,
        Except.toOption]
  | int32 =>
      obtain ⟨argument, result, arrayOf⟩ := int32Array_arrayOf uniform.1 uniform.2 key
      have starts := List.all_eq_true.mp uniform.1 first (by simp)
      refine ⟨argument, ?_, arrayOf⟩
      cases first <;> simp [isInteger] at starts
      all_goals simp [memberArgument, arrayArgument, jsonTypeToArgumentType, result,
        Except.mapError, Except.toOption]
  | float =>
      obtain ⟨argument, result, arrayOf⟩ := floatArray_arrayOf uniform key
      have starts := List.all_eq_true.mp uniform first (by simp)
      refine ⟨argument, ?_, arrayOf⟩
      cases first <;> simp [isFloat] at starts
      simp [memberArgument, arrayArgument, jsonTypeToArgumentType, result, Except.mapError,
        Except.toOption]
  | bool =>
      obtain ⟨argument, result, arrayOf⟩ := boolArray_arrayOf uniform key
      have starts := List.all_eq_true.mp uniform first (by simp)
      refine ⟨argument, ?_, arrayOf⟩
      cases first <;> simp [isBoolean] at starts
      simp [memberArgument, arrayArgument, jsonTypeToArgumentType, result, Except.mapError,
        Except.toOption]
  | eventArgs => exact uniform.elim

theorem Json.Plain.allOf {elements : List Json} (plain : (Json.array elements).Plain) :
    ∃ kind, AllOf kind elements := by
  have fits : ∀ item ∈ elements, item.FitsInt := fun item member =>
    (plain.child member).self.2.1
  rcases plain.self.2.2 with strings | integers | floats | booleans
  · exact ⟨.string, strings⟩
  · exact ⟨.int32, integers, fits⟩
  · exact ⟨.float, floats⟩
  · exact ⟨.bool, booleans⟩

theorem toSizeT_small (platform : Platform) {index : Nat} (small : index ≤ 2147483647) :
    platform.toSizeT index = index := by
  cases platform <;> simp only [Platform.toSizeT, Platform.sizeBits] <;> omega

theorem walk_element {platform : Platform} {tree : EventArgs} {ptr : ArgumentPtr}
    {argument : Argument EventArgs} {elements : List Json} {element : ElementType}
    (stored : tree.argumentAt ptr = some argument) (arrayOf : ArrayOf elements element argument)
    (small : elements.length ≤ 2147483648) (index : Nat) :
    walk platform tree element.tag [numeral index] none (some ptr) =
      if index < elements.length then some ⟨ptr, some index⟩ else none := by
  have notArgs : element.tag ≠ .args := by
    have scalar := arrayOf.scalar
    cases element <;> simp_all [ElementType.tag]
  by_cases fits : index ≤ 2147483647
  · simp [walk, walkOnce, stored, arrayOf.isArray, arrayWalk, stoi_numeral, fits,
      toSizeT_small platform fits, arrayOf.typed, notArgs, arrayOf.length]
  · have beyond : ¬ index < elements.length := by omega
    simp [walk, walkOnce, stored, arrayOf.isArray, arrayWalk, stoi_numeral, fits, beyond]

theorem numeral_plain (index : Nat) : PlainName (numeral index) := by
  obtain ⟨nonempty, digits⟩ := numeral_digits index
  refine ⟨nonempty, ?_⟩
  intro member
  exact (isDigit_ordinary (digits separator member)).2.2.2 rfl

theorem valueAt_plainNames {names : List CString} {json value : Json}
    (plain : json.PlainNames) (leads : json.valueAt names = some value) :
    ∀ name ∈ names, PlainName name := by
  induction names generalizing json with
  | nil => simp
  | cons name rest ih =>
      cases json with
      | object members =>
          simp only [valueAt, Option.bind_eq_some_iff] at leads
          obtain ⟨first, found, leads⟩ := leads
          intro other present
          rcases List.mem_cons.mp present with same | later
          · exact same ▸ plain.name (AssocMap.mem_of_find found)
          · exact ih (plain.child (child_of_find found)) leads other later
      | _ => simp [valueAt] at leads

structure AnswersAt (platform : Platform) (tree : EventArgs) (names : List CString)
    (value : Json) : Prop where
  scalar : value.isScalar = true → ∃ element any, Represents value element any ∧
    Resolves tree (getterOf platform element (joinPath names)) any ∧
    ∀ other, other ≠ element → other ≠ .eventArgs →
      ReturnsNull tree (getterOf platform other (joinPath names))
  object : ∀ members, value = .object members → ∃ sub, ofJson platform value = .ok sub ∧
    Resolves tree (getEventArgs platform (joinPath names)) (.eventArgs sub)
  array : ∀ elements, value = .array elements → elements ≠ [] → elements.length ≤ 2 ^ 31 →
    ∃ element,
      (∀ (i : Nat) item, elements[i]? = some item → ∃ any, Represents item element any ∧
        Resolves tree (getterOf platform element (joinPath (names ++ [numeral i]))) any) ∧
      ∀ i, elements.length ≤ i →
        ReturnsNull tree (getterOf platform element (joinPath (names ++ [numeral i])))

theorem read_element {tree : EventArgs} {ptr : ArgumentPtr} {argument : Argument EventArgs}
    (stored : tree.argumentAt ptr = some argument) (element : Option Nat) :
    tree.read ⟨ptr, element⟩ = argument.value.element element := by
  obtain ⟨holder, reached, found⟩ := Option.bind_eq_some_iff.mp stored
  simp [EventArgs.read, reached, found]

section
variable {platform : Platform} {tree : EventArgs} {names : List CString} {ptr : ArgumentPtr}

def LeadsTo (platform : Platform) (tree : EventArgs) (names : List CString)
    (ptr : ArgumentPtr) : Prop :=
  ∀ argument, tree.argumentAt ptr = some argument → ∀ type rest lastArg,
    walk platform tree type (names ++ rest) (some []) lastArg =
      walk platform tree type rest
        (if argument.value.scalarType = some .args then some (ValuePtr.toArgs ⟨ptr, none⟩)
          else none) (some ptr)

/-- Every getter ends at a stored scalar and only compares its type. -/
theorem LeadsTo.run_scalar {type : EventArgumentType} {any : AnyValue EventArgs}
    (leadsTo : LeadsTo platform tree names ptr) (regular : tree.Regular)
    (namesPlain : ∀ name ∈ names, PlainName name) (typed : any.scalarType = some type)
    (stored : tree.argumentAt ptr = some (scalarArgument ptr.key type any))
    (element : ElementType) :
    (getterOf platform element (joinPath names)).run tree =
      .ok (if type = element.tag then some ⟨ptr, none⟩ else none) tree := by
  have walked := leadsTo _ stored element.tag [] none
  rw [List.append_nil] at walked
  rw [run_getterOf platform regular, getKeyAsPath_joinPath names namesPlain, walked]
  simp [walk, stored, scalarArgument, typed]

theorem LeadsTo.run_element {elements : List Json} {element : ElementType}
    {argument : Argument EventArgs} (leadsTo : LeadsTo platform tree names ptr)
    (regular : tree.Regular) (namesPlain : ∀ name ∈ names, PlainName name)
    (stored : tree.argumentAt ptr = some argument) (arrayOf : ArrayOf elements element argument)
    (small : elements.length ≤ 2 ^ 31) (index : Nat) :
    (getterOf platform element (joinPath (names ++ [numeral index]))).run tree =
      .ok (if index < elements.length then some ⟨ptr, some index⟩ else none) tree := by
  have allPlain : ∀ name ∈ names ++ [numeral index], PlainName name := by
    intro name member
    rcases List.mem_append.mp member with earlier | last
    · exact namesPlain name earlier
    · exact List.mem_singleton.mp last ▸ numeral_plain index
  rw [run_getterOf platform regular, getKeyAsPath_joinPath _ allPlain,
    leadsTo argument stored element.tag [numeral index] none]
  simp only [arrayOf.notObject, reduceCtorEq, if_false]
  rw [walk_element stored arrayOf small index]

end

theorem decode_lookup (platform : Platform) (members : List (CString × Json))
    (wellFormed : (Json.object members).WellFormed) (plain : (Json.object members).Plain) :
    ∃ tree, ofJson platform (.object members) = .ok tree ∧
      ∀ names value, names ≠ [] → (Json.object members).valueAt names = some value →
        AnswersAt platform tree names value := by
  have settled := ofJson_settled platform (.object members) wellFormed
  obtain ⟨tree, decoded, filled⟩ := settled.exists_ok (plain.completes ⟨members, rfl⟩)
  refine ⟨tree, decoded, ?_⟩
  intro names value nonempty leads
  have namesPlain := valueAt_plainNames plain.names leads
  have valuePlain : value.Plain := valueAt_closed Plain.child plain leads
  obtain ⟨container, holder, memberOf, continues⟩ :=
    walk_chain wellFormed plain.names (EventArgs.deref_nil tree) decoded nonempty leads
  have leadsTo : LeadsTo platform tree names (memberPtr [] names) := continues
  have stored := memberOf.stored
  constructor
  · intro scalar
    obtain ⟨element, any, represents, kept⟩ := scalar_argument scalar valuePlain.self.2.1
    have typed := represents.scalarType.1
    have answers := leadsTo.run_scalar filled.regular namesPlain typed (stored.trans kept)
    refine ⟨element, any, represents, ⟨⟨memberPtr [] names, none⟩, ?_, ?_⟩, ?_⟩
    · simp [answers]
    · rw [read_element (stored.trans kept)]
      rfl
    · intro other different _
      have otherTag : element.tag ≠ other.tag :=
        fun same => different (ElementType.tag_injective same).symm
      simp [ReturnsNull, answers, otherTag]
  · rintro inner rfl
    obtain ⟨sub, subDecoded, kept, _⟩ := memberOf.enter
    have answers := leadsTo.run_scalar filled.regular namesPlain rfl kept .eventArgs
    refine ⟨sub, subDecoded, ⟨memberPtr [] names, none⟩, answers, ?_⟩
    rw [read_element kept]
    rfl
  · intro elements same nonempty small
    obtain ⟨first, rest, rfl⟩ := List.exists_cons_of_ne_nil nonempty
    subst same
    obtain ⟨element, uniform⟩ := valuePlain.allOf
    obtain ⟨argument, kept, arrayOf⟩ :=
      allOf_argument platform (.object container) (memberPtr [] names).key uniform
    have answers := leadsTo.run_element filled.regular namesPlain (stored.trans kept) arrayOf small
    refine ⟨element, ?_, ?_⟩
    · intro index item found
      obtain ⟨below, _⟩ := List.getElem?_eq_some_iff.mp found
      obtain ⟨any, represents, selected⟩ := arrayOf.represents index item found
      refine ⟨any, represents, ⟨memberPtr [] names, some index⟩, ?_, ?_⟩
      · simp only [answers, below, if_true]
      · rw [read_element (stored.trans kept), selected]
    · intro index beyond
      simp only [ReturnsNull, answers, Nat.not_lt.mpr beyond, if_false]

def sampleMembers : List (CString × Json) :=
  [(text "name", .string (text "a")),
    (text "stats", .object [(text "score", .array [.numberUnsigned 1, .numberUnsigned 2])])]

theorem decode_lookup_sample : ∃ tree, ofJson .x64 (.object sampleMembers) = .ok tree ∧
    ∀ names value, names ≠ [] → (Json.object sampleMembers).valueAt names = some value →
      AnswersAt .x64 tree names value :=
  decode_lookup .x64 sampleMembers (by decide) (by decide)

end SocketEvents
