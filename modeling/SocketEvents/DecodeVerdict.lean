import SocketEvents.EventArgsDecode

/-!
Which JSON values the constructor completes on, and which drive it into undefined behaviour,
said of the JSON value alone. The constructor settles every value one of three ways.
-/

namespace SocketEvents

open Execution

namespace Json

def isString : Json → Bool
  | .string _ => true
  | _ => false

def isBoolean : Json → Bool
  | .boolean _ => true
  | _ => false

def isArithmetic : Json → Bool
  | .numberInteger _ => true
  | .numberUnsigned _ => true
  | .numberFloat _ => true
  | .boolean _ => true
  | _ => false

def isArray : Json → Bool
  | .array _ => true
  | _ => false

def isStored : Json → Bool
  | .null => false
  | .array _ => false
  | _ => true

def elementsConvert : Json → Bool
  | .array (first :: rest) =>
      match jsonTypeToArgumentType first with
      | .string => rest.all isString
      | .int32 => rest.all isArithmetic
      | .float => rest.all isArithmetic
      | .bool => rest.all isBoolean
      | _ => true
  | _ => true

def holdsObjects : Json → Bool
  | .array (.object _ :: _) => true
  | _ => false

/-- A name a setter can store under, after the members before it: it has one component, or
its first component names an object among them. -/
def SafeName (before : List (CString × Json)) (key : CString) : Prop :=
  match getKeyAsPath key with
  | [] => False
  | [_] => True
  | name :: _ :: _ => ∃ members, (name, Json.object members) ∈ before

inductive Completes : Json → Prop
  | intro (json : Json) :
      (∀ before key value after, json.items = before ++ (key, value) :: after →
        value.isStored = true → SafeName before key) →
      (∀ key value, (key, value) ∈ json.items → value.elementsConvert = true) →
      (∀ key members, (key, Json.object members) ∈ json.items → Completes (.object members)) →
      (∀ key value, (key, value) ∈ json.items → value.holdsObjects = true →
        json.isArray = true) →
      (∀ key value child, (key, value) ∈ json.items → value.holdsObjects = true →
        child ∈ json.children → Completes child) →
      Completes json

structure EntryCompletes (json : Json) (before : List (CString × Json))
    (entry : CString × Json) : Prop where
  name : entry.2.isStored = true → SafeName before entry.1
  converts : entry.2.elementsConvert = true
  object : ∀ members, entry.2 = .object members → Completes (.object members)
  objects : entry.2.holdsObjects = true →
    json.isArray = true ∧ ∀ child ∈ json.children, Completes child

/-- Reading the entries in order, the constructor reaches one that a setter stores under an
unsafe name, in this value or in one it decodes on the way. -/
inductive Hazard : Json → Prop
  | name (json : Json) (before after : List (CString × Json)) (key : CString) (value : Json) :
      json.items = before ++ (key, value) :: after → Throughout (EntryCompletes json) before →
      value.isStored = true → (∀ members, value = .object members → Completes value) →
      ¬ SafeName before key → Hazard json
  | inObject (json : Json) (before after : List (CString × Json)) (key : CString)
      (members : List (CString × Json)) :
      json.items = before ++ (key, .object members) :: after →
      Throughout (EntryCompletes json) before → Hazard (.object members) → Hazard json
  | inElements (elements : List Json) (before after : List (CString × Json)) (key : CString)
      (value : Json) (front back : List Json) (element : Json) :
      (Json.array elements).items = before ++ (key, value) :: after →
      Throughout (EntryCompletes (.array elements)) before → value.holdsObjects = true →
      elements = front ++ element :: back → Throughout (fun _ => Completes) front →
      Hazard element → Hazard (.array elements)

inductive EntryHazard (json : Json) (before : List (CString × Json)) : CString × Json → Prop
  | name (key : CString) (value : Json) : value.isStored = true →
      (∀ members, value = .object members → Completes value) → ¬ SafeName before key →
      EntryHazard json before (key, value)
  | inObject (key : CString) (members : List (CString × Json)) : Hazard (.object members) →
      EntryHazard json before (key, .object members)
  | inElements (key : CString) (value : Json) (elements : List Json) : json = .array elements →
      value.holdsObjects = true →
      Reaches (fun _ => Completes) (fun _ => Hazard) elements →
      EntryHazard json before (key, value)

theorem completes_iff (json : Json) :
    Completes json ↔ Throughout (EntryCompletes json) json.items := by
  constructor
  · intro completes
    cases completes with
    | intro _ names converts objects arrays children =>
        intro before entry after split
        have member : (entry.1, entry.2) ∈ json.items := by simp [split]
        refine ⟨names before entry.1 entry.2 after split, converts entry.1 entry.2 member, ?_, ?_⟩
        · intro inner isObject
          exact objects entry.1 inner (isObject ▸ member)
        · intro nested
          exact ⟨arrays entry.1 entry.2 member nested,
            fun child inside => children entry.1 entry.2 child member nested inside⟩
  · intro all
    have entryAt : ∀ key value, (key, value) ∈ json.items →
        ∃ before, EntryCompletes json before (key, value) := by
      intro key value member
      obtain ⟨before, after, split⟩ := List.append_of_mem member
      exact ⟨before, all before (key, value) after split⟩
    refine .intro json ?_ ?_ ?_ ?_ ?_
    · intro before key value after split
      exact (all before (key, value) after split).name
    · intro key value member
      obtain ⟨before, entry⟩ := entryAt key value member
      exact entry.converts
    · intro key members member
      obtain ⟨before, entry⟩ := entryAt key _ member
      exact entry.object members rfl
    · intro key value member nested
      obtain ⟨before, entry⟩ := entryAt key value member
      exact (entry.objects nested).1
    · intro key value child member nested inside
      obtain ⟨before, entry⟩ := entryAt key value member
      exact (entry.objects nested).2 child inside

theorem hazard_iff (json : Json) :
    Hazard json ↔ Reaches (EntryCompletes json) (EntryHazard json) json.items := by
  constructor
  · intro hazard
    cases hazard with
    | name _ before after key value split done stored complete bad =>
        exact ⟨before, (key, value), after, split, done, .name key value stored complete bad⟩
    | inObject _ before after key members split done inner =>
        exact ⟨before, (key, .object members), after, split, done, .inObject key members inner⟩
    | inElements elements before after key value front back element split done nested parts
        earlier inner =>
        exact ⟨before, (key, value), after, split, done, .inElements key value elements rfl nested
          ⟨front, element, back, parts, earlier, inner⟩⟩
  · rintro ⟨before, entry, after, split, done, hazard⟩
    cases hazard with
    | name key value stored complete bad =>
        exact .name json before after key value split done stored complete bad
    | inObject key members inner => exact .inObject json before after key members split done inner
    | inElements key value elements same nested reached =>
        obtain ⟨front, element, back, parts, earlier, inner⟩ := reached
        subst same
        exact .inElements elements before after key value front back element split done nested
          parts earlier inner

def PlainNames (json : Json) : Prop :=
  ∀ value ∈ json.subvalues, ∀ name ∈ value.memberNames, PlainName name

instance (json : Json) : Decidable json.PlainNames :=
  inferInstanceAs (Decidable (∀ value ∈ json.subvalues, _))

theorem PlainNames.child {json child : Json} (plain : json.PlainNames)
    (member : child ∈ json.children) : child.PlainNames :=
  fun value inside => plain value (subvalues_of_child member inside)

theorem PlainNames.name {members : List (CString × Json)} (plain : (object members).PlainNames)
    {key : CString} {value : Json} (member : (key, value) ∈ members) : PlainName key :=
  plain _ (self_mem_subvalues _) key (List.mem_map_of_mem (f := Prod.fst) member)

theorem PlainNames.not_hazard {json : Json} (plain : json.PlainNames)
    (shape : json = .null ∨ ∃ members, json = .object members) : ¬ Hazard json := by
  intro hazard
  induction hazard with
  | name json before after key value split done stored complete bad =>
      rcases shape with rfl | ⟨members, rfl⟩
      · simp [items] at split
      · have parts : members = before ++ (key, value) :: after := split
        have member : (key, value) ∈ members := by simp [parts]
        have component := (plain.name member).component
        exact bad (by simp [SafeName, component.getKeyAsPath])
  | inObject json before after key members split done inner ih =>
      have member : (key, Json.object members) ∈ json.items := by simp [split]
      have child : Json.object members ∈ json.children := object_mem_children member rfl
      exact ih (plain.child child) (.inr ⟨members, rfl⟩)
  | inElements elements before after key value front back element split done nested parts
      earlier inner ih =>
      rcases shape with same | ⟨members, same⟩ <;> simp at same

end Json

open Json

structure Converts {T : Type} (get : Json → Except Exception T) (pred : Json → Bool) : Prop where
  accepts : ∀ json, (∃ value, get json = .ok value) ↔ pred json = true
  raises : ∀ json exception, get json = .error exception → exception.isStd = true

theorem getString_converts : Converts Json.getString isString := by
  constructor <;> intro json <;> cases json <;>
    simp [Json.getString, isString, Exception.isStd]

theorem getInt32_converts : Converts Json.getInt32 isArithmetic := by
  constructor <;> intro json <;> cases json <;>
    simp [Json.getInt32, isArithmetic, Exception.isStd]

theorem getFloat_converts : Converts Json.getFloat isArithmetic := by
  constructor <;> intro json <;> cases json <;>
    simp [Json.getFloat, isArithmetic, Exception.isStd]

theorem getBool_converts : Converts Json.getBool isBoolean := by
  constructor <;> intro json <;> cases json <;>
    simp [Json.getBool, isBoolean, Exception.isStd]

theorem setValueAsArray_cases {T : Type} {get : Json → Except Exception T} {pred : Json → Bool}
    (converts : Converts get pred) (wrap : List T → AnyValue EventArgs)
    (type : EventArgumentType) (key : CString)
    (elements : List Json) :
    (∃ values, List.Forall₂ (fun element value => get element = .ok value) elements values ∧
      (Argument.named key).setValueAsArray get wrap (.array elements) type = .ok
        { key, value := wrap values, type := some type, isArray := some true,
          length := values.length } ∧ elements.all pred = true) ∨
    (∃ error, (Argument.named key).setValueAsArray get wrap (.array elements) type =
      .error error ∧ error.isStd = true ∧ elements.all pred = false) := by
  rcases mapM_cases get elements with ⟨values, mapped, related⟩ | ⟨front, element, back, error,
    split, _, failed, mapped⟩
  · refine .inl ⟨values, related, ?_, ?_⟩
    · simp [Argument.setValueAsArray, mapped, Argument.named, related.length_eq, bind,
        Except.bind, pure, Except.pure]
    · rw [List.all_eq_true]
      intro element member
      obtain ⟨index, below, rfl⟩ := List.mem_iff_getElem.mp member
      exact (converts.accepts _).mp ⟨_, related.get below (related.length_eq ▸ below)⟩
  · refine .inr ⟨error, ?_, converts.raises element error failed, ?_⟩
    · simp [Argument.setValueAsArray, mapped, bind, Except.bind]
    · rw [List.all_eq_false]
      refine ⟨element, by simp [split], ?_⟩
      intro convertible
      obtain ⟨value, converted⟩ := (converts.accepts element).mpr convertible
      simp [converted] at failed

def StdException (exception : Exception) : Prop := exception.isStd = true

def Graded (platform : Platform) (json : Json) : Prop :=
  Settled (ofJson platform json) EventArgs.Regular StdException (Completes json) (Hazard json)

structure StoredArray (argument : Argument EventArgs) : Prop where
  consistent : argument.Consistent
  below : argument.Below
  notObject : argument.value.scalarType ≠ some .args

def ScalarWrap {T : Type} (type : EventArgumentType) (wrap : List T → AnyValue EventArgs) : Prop :=
  ∀ values, (wrap values).arrayType = some type ∧ (wrap values).allocated = values.length ∧
    (wrap values).scalarType = none ∧
    ∀ element sub, (wrap values).element element ≠ some (.eventArgs sub)

theorem stringArray_wrap :
    ScalarWrap .string (.stringArray : List CString → AnyValue EventArgs) := by
  intro values
  refine ⟨rfl, rfl, rfl, ?_⟩
  rintro (_ | index) sub <;> simp [AnyValue.element]

theorem int32Array_wrap : ScalarWrap .int32 (.int32Array : List Int32 → AnyValue EventArgs) := by
  intro values
  refine ⟨rfl, rfl, rfl, ?_⟩
  rintro (_ | index) sub <;> simp [AnyValue.element]

theorem floatArray_wrap : ScalarWrap .float (.floatArray : List Float32 → AnyValue EventArgs) := by
  intro values
  refine ⟨rfl, rfl, rfl, ?_⟩
  rintro (_ | index) sub <;> simp [AnyValue.element]

theorem boolArray_wrap : ScalarWrap .bool (.boolArray : List Bool → AnyValue EventArgs) := by
  intro values
  refine ⟨rfl, rfl, rfl, ?_⟩
  rintro (_ | index) sub <;> simp [AnyValue.element]

theorem storedArray_of_wrap {T : Type} {type : EventArgumentType}
    {wrap : List T → AnyValue EventArgs} (wraps : ScalarWrap type wrap) (key : CString)
    (values : List T) : StoredArray
      { key, value := wrap values, type := some type, isArray := some true,
        length := values.length } := by
  obtain ⟨typed, allocated, notScalar, noObject⟩ := wraps values
  refine ⟨.array type rfl rfl typed allocated.symm, ?_, by simp [notScalar]⟩
  intro element sub selected
  exact (noObject element sub selected).elim

section
variable {platform : Platform} {json : Json}

theorem not_entryHazard_of_array {before : List (CString × Json)} {key : CString}
    {elements : List Json} (plain : (Json.array elements).holdsObjects = false) :
    ¬ EntryHazard json before (key, .array elements) := by
  intro hazard
  cases hazard with
  | name _ _ stored _ _ => simp [isStored] at stored
  | inElements _ _ _ _ nested _ => simp [plain] at nested

theorem entryCompletes_of_array {before : List (CString × Json)} {key : CString}
    {elements : List Json} (plain : (Json.array elements).holdsObjects = false)
    (converts : (Json.array elements).elementsConvert = true) :
    EntryCompletes json before (key, .array elements) :=
  ⟨by simp [isStored], converts, by simp, by simp [plain]⟩

theorem scalarArray_settled {T : Type} {get : Json → Except Exception T} {pred : Json → Bool}
    {type : EventArgumentType} {wrap : List T → AnyValue EventArgs} {elements : List Json}
    (converts : Converts get pred) (wraps : ScalarWrap type wrap)
    (plain : (Json.array elements).holdsObjects = false)
    (same : (Json.array elements).elementsConvert = elements.all pred) (key : CString)
    (before : List (CString × Json)) :
    Settled (((Argument.named key).setValueAsArray get wrap (.array elements) type).mapError
        (Fault.thrown (δ := Defect))) StoredArray StdException
      (EntryCompletes json before (key, .array elements))
      (EntryHazard json before (key, .array elements)) := by
  have safe : ¬ EntryHazard json before (key, .array elements) := not_entryHazard_of_array plain
  rcases setValueAsArray_cases converts wrap type key elements with
    ⟨values, _, result, all⟩ | ⟨error, result, std, all⟩
  · rw [result]
    exact .returned _ rfl (storedArray_of_wrap wraps key values)
      (entryCompletes_of_array plain (same.trans all)) safe
  · rw [result]
    refine .threw error rfl std ?_ safe
    intro entry
    have converted := entry.converts
    simp [same, all] at converted

theorem storedArray_named (key : CString) : StoredArray (Argument.named key) := by
  refine ⟨.scalar .none rfl rfl rfl rfl, ?_, by simp [Argument.named, AnyValue.scalarType]⟩
  rintro (_ | index) sub <;> simp [Argument.named, AnyValue.element]

theorem eventArgsArray_mapM (platform : Platform) (elements : List Json) :
    eventArgsArray (.array elements) (elements.map (ofJson platform)) =
      elements.mapM (ofJson platform) := by
  rw [eventArgsArray, List.mapM_map]
  rfl

def objectsArgument (json : Json) (key : CString) (trees : List EventArgs) :
    Argument EventArgs :=
  { key
    value := .eventArgsArray trees
    type := some .args
    isArray := some true
    length := json.size }

theorem arrayArgument_objects (json : Json) (decoded : List Built) (key : CString)
    (inner : List (CString × Json)) (value : Json) :
    arrayArgument json decoded key (.object inner) value =
      (eventArgsArray json decoded).map (objectsArgument json key) := by
  simp only [arrayArgument, jsonTypeToArgumentType]
  cases eventArgsArray json decoded <;> rfl

theorem storedArray_eventArgs {elements : List Json} {trees : List EventArgs} (key : CString)
    (related : List.Forall₂ (fun element tree => ofJson platform element = .ok tree ∧
      tree.Regular) elements trees) : StoredArray
      { key, value := .eventArgsArray trees, type := some .args, isArray := some true,
        length := elements.length } := by
  refine ⟨.array .args rfl rfl rfl related.length_eq, ?_, by simp [AnyValue.scalarType]⟩
  rintro (_ | index) sub selected
  · simp [AnyValue.element] at selected
  · simp only [AnyValue.element, Option.map_eq_some_iff, AnyValue.eventArgs.injEq,
      exists_eq_right] at selected
    obtain ⟨below, rfl⟩ := List.getElem?_eq_some_iff.mp selected
    exact (related.get (related.length_eq ▸ below) below).2

theorem objectArray_settled (graded : ∀ child ∈ json.children, Graded platform child)
    (key : CString) (members : List (CString × Json)) (rest : List Json)
    (before : List (CString × Json)) :
    Settled (arrayArgument json (json.children.map (ofJson platform)) key (.object members)
        (.array (.object members :: rest))) StoredArray StdException
      (EntryCompletes json before (key, .array (.object members :: rest)))
      (EntryHazard json before (key, .array (.object members :: rest))) := by
  have nested : (Json.array (.object members :: rest)).holdsObjects = true := rfl
  by_cases container : json.isArray = true
  · obtain ⟨elements, rfl⟩ : ∃ elements, json = .array elements := by
      cases json <;> simp_all [isArray]
    have result := eventArgsArray_mapM platform elements
    have hazardous : EntryHazard (.array elements) before (key, .array (.object members :: rest)) →
        Reaches (fun _ => Completes) (fun _ => Hazard) elements := by
      intro hazard
      cases hazard with
      | name _ _ stored _ _ => simp [isStored] at stored
      | inElements _ _ others same _ reached => exact Json.array.inj same ▸ reached
    have incomplete : (¬ ∀ element ∈ elements, Completes element) →
        ¬ EntryCompletes (.array elements) before (key, .array (.object members :: rest)) :=
      fun fails entry => fails (entry.objects nested).2
    have each : ∀ element ∈ elements, Graded platform element := graded
    cases mapM_settled each with
    | returned trees mapped related complete safe =>
        refine .returned _ ?_ (storedArray_eventArgs key related)
          ⟨by simp [isStored], rfl, by simp, fun _ => ⟨rfl, complete⟩⟩ (safe ∘ hazardous)
        rw [arrayArgument_objects, children, result, mapped]
        rfl
    | threw exception mapped std fails safe =>
        refine .threw exception ?_ std (incomplete fails) (safe ∘ hazardous)
        rw [arrayArgument_objects, children, result, mapped]
        rfl
    | crashed defect mapped fails reached =>
        refine .crashed defect ?_ (incomplete fails) (.inElements key _ elements rfl nested reached)
        rw [arrayArgument_objects, children, result, mapped]
        rfl
  · have rejected : eventArgsArray json (json.children.map (ofJson platform)) =
        .error (.thrown (.typeError 305)) := by
      cases json <;> simp_all [isArray, eventArgsArray]
    refine .threw (.typeError 305) ?_ rfl (fun entry => container (entry.objects nested).1) ?_
    · rw [arrayArgument_objects, rejected]
      rfl
    · intro hazard
      cases hazard with
      | name _ _ stored _ _ => simp [isStored] at stored
      | inElements _ _ _ same _ _ => exact container (by rw [same]; rfl)

theorem arrayArgument_settled (graded : ∀ child ∈ json.children, Graded platform child)
    (key : CString) (first : Json) (rest : List Json) (before : List (CString × Json)) :
    Settled (arrayArgument json (json.children.map (ofJson platform)) key first
        (.array (first :: rest))) StoredArray StdException
      (EntryCompletes json before (key, .array (first :: rest)))
      (EntryHazard json before (key, .array (first :: rest))) := by
  have skipped : (Json.array (first :: rest)).holdsObjects = false →
      (Json.array (first :: rest)).elementsConvert = true →
      Settled (.ok (Argument.named key) : Except (Fault Exception Defect) _) StoredArray
        StdException (EntryCompletes json before (key, .array (first :: rest)))
        (EntryHazard json before (key, .array (first :: rest))) :=
    fun plain converts => .returned _ rfl (storedArray_named key)
      (entryCompletes_of_array plain converts) (not_entryHazard_of_array plain)
  cases first with
  | string value =>
      exact scalarArray_settled getString_converts stringArray_wrap rfl
        (by simp [elementsConvert, jsonTypeToArgumentType, isString]) key before
  | numberInteger value =>
      exact scalarArray_settled getInt32_converts int32Array_wrap rfl
        (by simp [elementsConvert, jsonTypeToArgumentType, isArithmetic]) key before
  | numberUnsigned value =>
      exact scalarArray_settled getInt32_converts int32Array_wrap rfl
        (by simp [elementsConvert, jsonTypeToArgumentType, isArithmetic]) key before
  | numberFloat value =>
      exact scalarArray_settled getFloat_converts floatArray_wrap rfl
        (by simp [elementsConvert, jsonTypeToArgumentType, isArithmetic]) key before
  | boolean value =>
      exact scalarArray_settled getBool_converts boolArray_wrap rfl
        (by simp [elementsConvert, jsonTypeToArgumentType, isBoolean]) key before
  | object members => exact objectArray_settled graded key members rest before
  | null => exact skipped rfl rfl
  | array elements => exact skipped rfl rfl

end

end SocketEvents
