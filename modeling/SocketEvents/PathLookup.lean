import SocketEvents.RoundTrip

/-!
Which member a path leads the scalar getters to. A name that the tree does not have is passed
over, and the names after it are looked up where the walk stands.
-/

namespace SocketEvents

open Execution Json

namespace Json

def isKept : Json → Bool
  | .null => false
  | .array [] => false
  | _ => true

/-- The names of a path that the walk does not pass over. -/
def leftOver : List CString → Json → List CString
  | [], _ => []
  | name :: rest, .object members =>
      match AssocMap.find name members with
      | some value =>
          if value.isKept then name :: leftOver rest value else leftOver rest (.object members)
      | none => leftOver rest (.object members)
  | name :: rest, _ => name :: rest

inductive Selects (platform : Platform) (json : Json) (type : EventArgumentType) :
    List CString → Prop
  | member (names : List CString) (value : Json) : names ≠ [] →
      json.valueAt names = some value → jsonTypeToArgumentType value = type →
      Selects platform json type names
  | element (front back : List CString) (key : CString) (first : Json) (rest : List Json)
      (index : Int) : front ≠ [] → json.valueAt front = some (.array (first :: rest)) →
      jsonTypeToArgumentType first = type → stoi key = .ok index →
      platform.toSizeT index < rest.length + 1 → Selects platform json type (front ++ key :: back)

inductive StoredAs (platform : Platform) : Json → AnyValue EventArgs → Prop
  | string (value : CString) : StoredAs platform (.string value) (.string value)
  | boolean (value : Bool) : StoredAs platform (.boolean value) (.bool value)
  | integer (value : Int64) : StoredAs platform (.numberInteger value) (.int32 value.toInt32)
  | unsigned (value : UInt64) :
      StoredAs platform (.numberUnsigned value) (.int32 value.toUInt32.toInt32)
  | float (value : Float) : StoredAs platform (.numberFloat value) (.float value.toFloat32)
  | object (members : List (CString × Json)) (sub : EventArgs) :
      ofJson platform (.object members) = .ok sub →
      StoredAs platform (.object members) (.eventArgs sub)

theorem leftOver_of_valueAt {names : List CString} {json value : Json}
    (leads : json.valueAt names = some value) (kept : value.isKept = true) :
    leftOver names json = names := by
  induction names generalizing json with
  | nil => rfl
  | cons name rest ih =>
      cases json with
      | object members =>
          simp only [valueAt, Option.bind_eq_some_iff] at leads
          obtain ⟨first, found, leads⟩ := leads
          have inside : first.isKept = true := by
            cases rest with
            | nil =>
                simp only [valueAt, Option.some.injEq] at leads
                exact leads ▸ kept
            | cons next others => cases first <;> simp_all [valueAt, isKept]
          simp only [leftOver, found, inside, if_true, ih leads]
      | _ => simp [valueAt] at leads

theorem leftOver_length (names : List CString) (json : Json) :
    (leftOver names json).length ≤ names.length := by
  induction names generalizing json with
  | nil => simp [leftOver]
  | cons name rest ih =>
      cases json with
      | object members =>
          simp only [leftOver]
          split
          · split
            · simpa using ih _
            · exact Nat.le_succ_of_le (ih _)
          · exact Nat.le_succ_of_le (ih _)
      | _ => simp [leftOver]

theorem leftOver_leftOver (names : List CString) (json : Json) :
    leftOver (leftOver names json) json = leftOver names json := by
  induction names generalizing json with
  | nil => simp [leftOver]
  | cons name rest ih =>
      cases json with
      | object members =>
          cases found : AssocMap.find name members with
          | none => simp only [leftOver, found, ih]
          | some value =>
              by_cases kept : value.isKept = true
              · simp only [leftOver, found, kept, if_true, ih]
              · simp only [leftOver, found, kept, Bool.false_eq_true, if_false, ih]
      | _ => simp [leftOver]

theorem leftOver_split {names : List CString} {members : List (CString × Json)}
    (nonempty : names ≠ []) (whole : leftOver names (.object members) = names) :
    ∃ front back value, names = front ++ back ∧ front ≠ [] ∧
      (Json.object members).valueAt front = some value ∧ value.isKept = true ∧
      (back = [] ∨ ∀ inner, value ≠ .object inner) := by
  induction names generalizing members with
  | nil => exact (nonempty rfl).elim
  | cons name rest ih =>
      have shorter : ∀ json, (leftOver rest json).length ≤ rest.length := leftOver_length rest
      simp only [leftOver] at whole
      split at whole
      · rename_i value found
        split at whole
        · rename_i kept
          simp only [List.cons.injEq, true_and] at whole
          have here : (Json.object members).valueAt [name] = some value := by
            simp [valueAt, found]
          cases rest with
          | nil => exact ⟨[name], [], value, rfl, by simp, here, kept, .inl rfl⟩
          | cons next others =>
              cases value with
              | object inner =>
                  obtain ⟨front, back, last, split, nonempty', leads, kept', ends⟩ :=
                    ih (by simp) whole
                  refine ⟨name :: front, back, last, by simp [split], by simp, ?_, kept', ends⟩
                  simp [valueAt, found, leads]
              | _ => exact ⟨[name], _, _, rfl, by simp, here, kept, .inr (by simp)⟩
        · have long := shorter (.object members)
          rw [whole, List.length_cons] at long
          omega
      · have long := shorter (.object members)
        rw [whole, List.length_cons] at long
        omega

end Json

def Json.convertTo : ElementType → Json → Except Exception (AnyValue EventArgs)
  | .string, json => json.getString.map .string
  | .int32, json => json.getInt32.map .int32
  | .float, json => json.getFloat.map .float
  | .bool, json => json.getBool.map .bool
  | .eventArgs, _ => .error (.typeError 302)

structure ArrayBuilt (key : CString) (kind : ElementType) (elements : List Json)
    (argument : Argument EventArgs) : Prop where
  keyed : argument.key = key
  typed : argument.type = some kind.tag
  isArray : argument.isArray = some true
  wrapped : argument.value.arrayType = some kind.tag
  length : argument.length = elements.length
  allocated : argument.length = argument.value.allocated
  converted : ∀ (i : Nat) item, elements[i]? = some item → ∃ any,
    item.convertTo kind = .ok any ∧ argument.value.element (some i) = some any

theorem arrayBuilt_of_values {T : Type} {get : Json → Except Exception T} {pred : Json → Bool}
    {kind : ElementType} {wrap : List T → AnyValue EventArgs} {key : CString}
    {elements : List Json} {argument : Argument EventArgs} (one : T → AnyValue EventArgs)
    (converts : Converts get pred) (wraps : ScalarWrap kind.tag wrap)
    (select : ∀ values index, (wrap values).element (some index) = values[index]?.map one)
    (convert : ∀ item value, get item = .ok value → item.convertTo kind = .ok (one value))
    (result : ((Argument.named key).setValueAsArray get wrap (.array elements)
      kind.tag).mapError (Fault.thrown (δ := Defect)) = .ok argument) :
    ArrayBuilt key kind elements argument := by
  rcases setValueAsArray_cases converts wrap kind.tag key elements with
    ⟨values, related, built, _⟩ | ⟨_, refused, _⟩
  · rw [built] at result
    simp only [Except.mapError, Except.ok.injEq] at result
    subst result
    obtain ⟨wrapped, allocated, _⟩ := wraps values
    refine ⟨rfl, rfl, rfl, wrapped, related.length_eq.symm, allocated.symm, ?_⟩
    intro index item found
    obtain ⟨below, rfl⟩ := List.getElem?_eq_some_iff.mp found
    have inside : index < values.length := related.length_eq ▸ below
    refine ⟨one values[index], convert _ _ (related.get below inside), ?_⟩
    simp [select, inside]
  · simp [refused, Except.mapError] at result

theorem arrayArgument_built {members : List (CString × Json)} {decoded : List Built}
    {key : CString} {first : Json} {rest : List Json} {argument : Argument EventArgs}
    (result : arrayArgument (.object members) decoded key first (.array (first :: rest)) =
      .ok argument) :
    (jsonTypeToArgumentType first = .none ∧ argument = .named key) ∨ ∃ kind : ElementType,
      kind ≠ .eventArgs ∧ jsonTypeToArgumentType first = kind.tag ∧
        ArrayBuilt key kind (first :: rest) argument := by
  have integers : ∀ item value, Json.getInt32 item = .ok value →
      item.convertTo .int32 = .ok (.int32 value) := by
    intro item value converted
    simp [convertTo, converted, Except.map]
  cases first with
  | string value =>
      refine .inr ⟨.string, by simp, rfl, arrayBuilt_of_values .string getString_converts
        stringArray_wrap (fun _ _ => rfl) ?_ result⟩
      intro item value converted
      simp [convertTo, converted, Except.map]
  | numberInteger value =>
      exact .inr ⟨.int32, by simp, rfl, arrayBuilt_of_values .int32 getInt32_converts
        int32Array_wrap (fun _ _ => rfl) integers result⟩
  | numberUnsigned value =>
      exact .inr ⟨.int32, by simp, rfl, arrayBuilt_of_values .int32 getInt32_converts
        int32Array_wrap (fun _ _ => rfl) integers result⟩
  | numberFloat value =>
      refine .inr ⟨.float, by simp, rfl, arrayBuilt_of_values .float getFloat_converts
        floatArray_wrap (fun _ _ => rfl) ?_ result⟩
      intro item value converted
      simp [convertTo, converted, Except.map]
  | boolean value =>
      refine .inr ⟨.bool, by simp, rfl, arrayBuilt_of_values .bool getBool_converts
        boolArray_wrap (fun _ _ => rfl) ?_ result⟩
      intro item value converted
      simp [convertTo, converted, Except.map]
  | object inner =>
      simp [arrayArgument, jsonTypeToArgumentType, eventArgsArray, bind, Except.bind] at result
  | null => exact .inl ⟨rfl, (Except.ok.inj result).symm⟩
  | array elements => exact .inl ⟨rfl, (Except.ok.inj result).symm⟩

theorem arrayArgument_of_member {platform : Platform} {json : Json} {key : CString}
    {first : Json} {rest : List Json} {argument : Argument EventArgs}
    (stored : memberArgument platform json key (.array (first :: rest)) = some argument) :
    arrayArgument json (json.children.map (ofJson platform)) key first
      (.array (first :: rest)) = .ok argument := by
  simp only [memberArgument] at stored
  cases result : arrayArgument json (json.children.map (ofJson platform)) key first
      (.array (first :: rest)) with
  | error fault => simp [result, Except.toOption] at stored
  | ok other =>
      simp only [result, Except.toOption, Option.some.injEq] at stored
      rw [stored]

theorem jsonTypeToArgumentType_kept {value : Json} {type : EventArgumentType}
    (typed : jsonTypeToArgumentType value = type) (real : type ≠ .none) :
    value.isKept = true := by
  cases value <;> simp_all [jsonTypeToArgumentType, isKept]

section
variable {platform : Platform} {tree : EventArgs} {ptr : ArgumentPtr}
  {container : List (CString × Json)} {holder : EventArgs}

theorem MemberOf.scalar {value : Json}
    (memberOf : MemberOf platform tree ptr value container holder)
    (real : jsonTypeToArgumentType value ≠ .none) :
    ∃ any, StoredAs platform value any ∧ any.scalarType = some (jsonTypeToArgumentType value) ∧
      tree.argumentAt ptr = some (scalarArgument ptr.key (jsonTypeToArgumentType value) any) := by
  have stored := memberOf.stored
  cases value with
  | object inner =>
      obtain ⟨sub, decoded, located, _⟩ := memberOf.enter
      exact ⟨_, .object inner sub decoded, rfl, located⟩
  | string value => exact ⟨_, .string value, rfl, stored⟩
  | boolean value => exact ⟨_, .boolean value, rfl, stored⟩
  | numberInteger value => exact ⟨_, .integer value, rfl, stored⟩
  | numberUnsigned value => exact ⟨_, .unsigned value, rfl, stored⟩
  | numberFloat value => exact ⟨_, .float value, rfl, stored⟩
  | null => exact (real rfl).elim
  | array elements => exact (real rfl).elim

/-- A stored array has the type of its first element; one that starts with null or an array is
not an array at all. -/
structure ArrayShape (first : Json) (rest : List Json) (argument : Argument EventArgs) :
    Prop where
  typed : argument.type = some (jsonTypeToArgumentType first)
  flagged : argument.isArray = some (decide (jsonTypeToArgumentType first ≠ .none))
  length : jsonTypeToArgumentType first ≠ .none → argument.length = rest.length + 1
  notObjects : jsonTypeToArgumentType first ≠ .args
  notScalar : ∀ type, type ≠ .none → argument.value.scalarType ≠ some type

theorem ArrayShape.of_named (first : Json) (rest : List Json) (key : CString)
    (unreal : jsonTypeToArgumentType first = .none) :
    ArrayShape first rest (Argument.named key) := by
  refine ⟨by simp [unreal, Argument.named], by simp [unreal, Argument.named], by simp [unreal],
    by simp [unreal], ?_⟩
  intro type real
  simpa [Argument.named, AnyValue.scalarType] using real.symm

theorem ArrayBuilt.shape {kind : ElementType} {first : Json} {rest : List Json} {key : CString}
    {argument : Argument EventArgs} (built : ArrayBuilt key kind (first :: rest) argument)
    (scalar : kind ≠ .eventArgs) (typed : jsonTypeToArgumentType first = kind.tag) :
    ArrayShape first rest argument := by
  refine ⟨by rw [typed, built.typed], ?_, fun _ => built.length, ?_, ?_⟩
  · rw [built.isArray, typed]
    simp [kind.tag_ne_none]
  · rw [typed]
    cases kind <;> simp_all [ElementType.tag]
  · intro type _
    simp [argument.value.scalarType_of_arrayType built.wrapped]

theorem MemberOf.array {first : Json} {rest : List Json}
    (memberOf : MemberOf platform tree ptr (.array (first :: rest)) container holder) :
    ∃ argument, tree.argumentAt ptr = some argument ∧ ArrayShape first rest argument := by
  have settled := ofJson_settled platform (.object container) memberOf.wellFormed
  have graded : ∀ child ∈ (Json.object container).children, Graded platform child :=
    fun child member => (ofJson_settled platform child (memberOf.wellFormed.child member)).imp
      fun _ filled => filled.regular
  obtain ⟨before, after, split⟩ := List.append_of_mem memberOf.member
  have entry := (completes_iff _).mp (settled.of_ok memberOf.decoded).2 before _ after split
  obtain ⟨argument, result, _⟩ :=
    (arrayArgument_settled graded ptr.key first rest before).exists_ok entry
  refine ⟨argument, ?_, ?_⟩
  · rw [memberOf.stored]
    simp [memberArgument, result, Except.toOption]
  · rcases arrayArgument_built result with ⟨unreal, rfl⟩ | ⟨kind, scalar, typed, built⟩
    · exact .of_named first rest ptr.key unreal
    · exact built.shape scalar typed

theorem walk_absent {args : ArgsPtr} {name : CString}
    (absent : tree.argumentAt ⟨args, name⟩ = none) (type : EventArgumentType)
    (rest : List CString) (lastArg : Option ArgumentPtr) :
    walk platform tree type (name :: rest) (some args) lastArg =
      walk platform tree type rest (some args) lastArg := by
  simp [walk, walkOnce, absent]

theorem walk_leftOver {names : List CString} {members : List (CString × Json)} {args : ArgsPtr}
    {holder : EventArgs} (plainPath : ∀ name ∈ names, PlainName name)
    (wellFormed : (Json.object members).WellFormed) (plain : (Json.object members).PlainNames)
    (reached : tree.deref args = some holder)
    (decoded : ofJson platform (.object members) = .ok holder) (type : EventArgumentType)
    (lastArg : Option ArgumentPtr) :
    walk platform tree type names (some args) lastArg =
      walk platform tree type (leftOver names (.object members)) (some args) lastArg := by
  induction names generalizing members args holder lastArg with
  | nil => rfl
  | cons name rest ih =>
      have restPlain : ∀ other ∈ rest, PlainName other :=
        fun other member => plainPath other (List.mem_cons_of_mem _ member)
      have contents := (completed_filled wellFormed decoded).contents name
        (plainPath name (by simp)).component
      simp only [Json.items] at contents
      have located : tree.argumentAt ⟨args, name⟩ = holder.find name := by
        simp [EventArgs.argumentAt, reached]
      simp only [leftOver]
      split
      · rename_i value found
        have memberOf := memberOf_find wellFormed plain reached decoded found
        by_cases kept : value.isKept = true
        · rw [if_pos kept]
          cases value with
          | object inner =>
              obtain ⟨sub, subDecoded, stored, below⟩ := memberOf.enter
              have inside := child_of_find found
              rw [walk_found stored, walk_found stored]
              exact ih restPlain (wellFormed.child inside) (plain.child inside) below subDecoded _
          | null => simp [isKept] at kept
          | array elements =>
              cases rest <;> rfl
          | _ => cases rest <;> rfl
        · rw [if_neg kept]
          have absent : tree.argumentAt ⟨args, name⟩ = none := by
            rw [memberOf.stored]
            cases value with
            | null => rfl
            | array elements => cases elements <;> simp_all [isKept, memberArgument]
            | _ => simp [isKept] at kept
          rw [walk_absent absent]
          exact ih restPlain wellFormed plain reached decoded lastArg
      · rename_i missing
        have absent : tree.argumentAt ⟨args, name⟩ = none := by
          rw [located, contents, missing]
          rfl
        rw [walk_absent absent]
        exact ih restPlain wellFormed plain reached decoded lastArg

section
variable {argument : Argument EventArgs} {first : Json} {rest : List Json}
  {type : EventArgumentType}

theorem walk_array_other (stored : tree.argumentAt ptr = some argument)
    (shape : ArrayShape first rest argument) (real : type ≠ .none)
    (other : jsonTypeToArgumentType first ≠ type) (back : List CString) :
    walk platform tree type back none (some ptr) = none := by
  induction back with
  | nil => simp [walk, stored, shape.notScalar type real]
  | cons key back ih =>
      have different : some (jsonTypeToArgumentType first) ≠ some type := by simpa using other
      have notArgs := shape.notObjects
      by_cases flagged : argument.isArray = some true
      · cases parsed : stoi key with
        | error exception => simp [walk, walkOnce, stored, flagged, arrayWalk, parsed]
        | ok index =>
            simpa [walk, walkOnce, stored, flagged, arrayWalk, parsed, shape.typed, notArgs, other]
              using ih
      · simp [walk, walkOnce, stored, flagged]

theorem walk_array_same (stored : tree.argumentAt ptr = some argument)
    (shape : ArrayShape first rest argument) (real : jsonTypeToArgumentType first ≠ .none)
    (key : CString) (back : List CString) :
    walk platform tree (jsonTypeToArgumentType first) (key :: back) none (some ptr) =
      match stoi key with
      | .ok index =>
          if platform.toSizeT index < rest.length + 1 then
            some ⟨ptr, some (platform.toSizeT index)⟩
          else none
      | .error _ => none := by
  have flagged : argument.isArray = some true := by simp [shape.flagged, real]
  cases parsed : stoi key with
  | error exception => simp [walk, walkOnce, stored, flagged, arrayWalk, parsed]
  | ok index =>
      simp [walk, walkOnce, stored, flagged, arrayWalk, parsed, shape.typed, shape.notObjects,
        shape.length real]

end

section
variable {members : List (CString × Json)} {names : List CString} {type : EventArgumentType}

theorem walk_of_selects (wellFormed : (Json.object members).WellFormed)
    (plain : (Json.object members).PlainNames)
    (decoded : ofJson platform (.object members) = .ok tree) (real : type ≠ .none)
    (selects : Selects platform (.object members) type names) :
    ∃ ptr, walk platform tree type names (some []) none = some ptr := by
  cases selects with
  | member _ value nonempty leads typed =>
      obtain ⟨container, holder, memberOf, continues⟩ :=
        walk_chain wellFormed plain (EventArgs.deref_nil tree) decoded nonempty leads
      obtain ⟨any, _, scalar, stored⟩ := memberOf.scalar (typed ▸ real)
      have walked := continues _ stored type [] none
      rw [List.append_nil] at walked
      rw [typed] at scalar
      exact ⟨⟨memberPtr [] names, none⟩, by simp [walked, walk, stored, scalarArgument, scalar]⟩
  | element front back key first rest index nonempty leads typed parsed inside =>
      obtain ⟨container, holder, memberOf, continues⟩ :=
        walk_chain wellFormed plain (EventArgs.deref_nil tree) decoded nonempty leads
      obtain ⟨argument, stored, shape⟩ := memberOf.array
      subst typed
      refine ⟨⟨memberPtr [] front, some (platform.toSizeT index)⟩, ?_⟩
      rw [continues argument stored, if_neg (shape.notScalar .args (by decide)),
        walk_array_same stored shape real, parsed]
      exact if_pos inside

theorem walk_whole (wellFormed : (Json.object members).WellFormed)
    (plain : (Json.object members).PlainNames)
    (decoded : ofJson platform (.object members) = .ok tree) (real : type ≠ .none)
    (nonempty : names ≠ []) (whole : leftOver names (.object members) = names)
    {result : ValuePtr} (found : walk platform tree type names (some []) none = some result) :
    Selects platform (.object members) type names ∧
      ((result = ⟨memberPtr [] names, none⟩ ∧ ∃ value any,
        (Json.object members).valueAt names = some value ∧
        jsonTypeToArgumentType value = type ∧ StoredAs platform value any ∧
        tree.read result = some any) ∨
      ∃ front back elements, names = front ++ back ∧ back ≠ [] ∧
        (Json.object members).valueAt front = some (.array elements)) := by
  obtain ⟨front, back, value, rfl, frontNonempty, leads, kept, ends⟩ :=
    leftOver_split nonempty whole
  obtain ⟨container, holder, memberOf, continues⟩ :=
    walk_chain wellFormed plain (EventArgs.deref_nil tree) decoded frontNonempty leads
  by_cases scalar : jsonTypeToArgumentType value = .none
  · -- what is kept and no scalar is an array
    obtain ⟨first, rest, rfl⟩ : ∃ first rest, value = .array (first :: rest) := by
      cases value with
      | array elements => cases elements <;> simp_all [isKept]
      | _ => simp_all [isKept, jsonTypeToArgumentType]
    obtain ⟨argument, stored, shape⟩ := memberOf.array
    rw [continues argument stored, if_neg (shape.notScalar .args (by decide))] at found
    by_cases same : jsonTypeToArgumentType first = type
    · subst same
      cases back with
      | nil => simp [walk, stored, shape.notScalar _ real] at found
      | cons key back =>
          rw [walk_array_same stored shape real] at found
          cases parsed : stoi key with
          | error exception => simp [parsed] at found
          | ok index =>
              simp only [parsed] at found
              split at found
              · rename_i inside
                exact ⟨.element front back key first rest index frontNonempty leads rfl parsed
                  inside, .inr ⟨front, _, _, rfl, by simp, leads⟩⟩
              · simp at found
    · rw [walk_array_other stored shape real same] at found
      simp at found
  · obtain ⟨any, storedAs, typed, stored⟩ := memberOf.scalar scalar
    rw [continues _ stored] at found
    cases back with
    | nil =>
        rw [List.append_nil]
        by_cases same : jsonTypeToArgumentType value = type
        · subst same
          simp only [walk, stored, scalarArgument, typed, if_true, Option.some.injEq] at found
          refine ⟨.member front value frontNonempty leads rfl,
            .inl ⟨found.symm, value, any, leads, rfl, storedAs, ?_⟩⟩
          rw [← found, read_element stored]
          cases any <;> simp_all [scalarArgument, AnyValue.element, AnyValue.scalarType]
        · simp [walk, stored, scalarArgument, typed, same] at found
    | cons key back =>
        have notObject := ends.resolve_left (by simp)
        have leaf : jsonTypeToArgumentType value ≠ .args := by
          cases value <;> simp_all [jsonTypeToArgumentType]
        simp [walk, walkOnce, stored, scalarArgument, typed, leaf] at found

end

end

/-! What a getter points at -/

/-- A result that is not null points at the member the whole path names. -/
def PathExact (platform : Platform) (tree : EventArgs) (json : Json) (names : List CString)
    (element : ElementType) : Prop :=
  ∀ ptr, (getterOf platform element (joinPath names)).run tree = .ok (some ptr) tree →
    ptr = ⟨memberPtr [] names, none⟩ ∧ ∃ value any, json.valueAt names = some value ∧
      jsonTypeToArgumentType value = element.tag ∧ StoredAs platform value any ∧
      tree.read ptr = some any

theorem pathExact_iff {platform : Platform} {members : List (CString × Json)} {tree : EventArgs}
    {names : List CString} (element : ElementType)
    (wellFormed : (Json.object members).WellFormed) (plain : (Json.object members).PlainNames)
    (decoded : ofJson platform (.object members) = .ok tree)
    (plainPath : ∀ name ∈ names, PlainName name)
    (noArray : ∀ front back elements, names = front ++ back → back ≠ [] →
      (Json.object members).valueAt front ≠ some (.array elements)) :
    PathExact platform tree (.object members) names element ↔
      leftOver names (.object members) = names ∨
        ¬ Selects platform (.object members) element.tag (leftOver names (.object members)) := by
  have regular := (completed_filled wellFormed decoded).regular
  have real := element.tag_ne_none
  have answers : (getterOf platform element (joinPath names)).run tree = .ok (walk platform tree
      element.tag (leftOver names (.object members)) (some []) none) tree := by
    rw [run_getterOf platform regular, getKeyAsPath_joinPath names plainPath,
      walk_leftOver plainPath wellFormed plain (EventArgs.deref_nil tree) decoded]
  constructor
  · intro located
    by_cases whole : leftOver names (.object members) = names
    · exact .inl whole
    · refine .inr fun selects => whole ?_
      obtain ⟨ptr, found⟩ := walk_of_selects wellFormed plain decoded real selects
      obtain ⟨_, value, any, leads, typed, _⟩ := located ptr (by rw [answers, found])
      exact leftOver_of_valueAt leads (jsonTypeToArgumentType_kept typed real)
  · intro condition ptr result
    rw [answers] at result
    simp only [EStateM.Result.ok.injEq, and_true] at result
    have left : leftOver names (.object members) ≠ [] := by
      intro none
      simp [none, walk] at result
    obtain ⟨selects, outcome⟩ := walk_whole wellFormed plain decoded real left
      (leftOver_leftOver names _) result
    have whole := condition.resolve_right (not_not_intro selects)
    rw [whole] at outcome
    rcases outcome with here | ⟨front, back, elements, split, more, leads⟩
    · exact here
    · exact (noArray front back elements split more leads).elim

def twoLevels : List (CString × Json) :=
  [(text "a", .object [(text "c", .numberUnsigned 2)]), (text "b", .numberUnsigned 1)]

def twoLevelsTree : EventArgs :=
  .mk [(text "a", scalarArgument (text "a") .args
      (.eventArgs (.mk [(text "c", scalarArgument (text "c") .int32 (.int32 2))]))),
    (text "b", scalarArgument (text "b") .int32 (.int32 1))]

theorem pathExact_iff_twoLevels :
    PathExact .x86 twoLevelsTree (.object twoLevels) [text "a", text "c"] .int32 := by
  refine (pathExact_iff .int32 (by decide) (by decide) rfl (by decide) ?_).mpr (.inl (by decide))
  intro front back elements split more
  rcases front with _ | ⟨first, _ | ⟨second, rest⟩⟩
  · simp [valueAt]
  · simp only [List.cons_append, List.nil_append, List.cons.injEq] at split
    simp [← split.1, valueAt, twoLevels, AssocMap.find]
  · simp only [List.cons_append, List.cons.injEq] at split
    exact (more (List.append_eq_nil_iff.mp split.2.2.symm).2).elim

/-- The path "x/b" names nothing, and its last name is found at the root. -/
theorem absentName_found : ¬ ∀ platform members tree names element,
    (Json.object members).WellFormed → (Json.object members).PlainNames →
    ofJson platform (.object members) = .ok tree → names ≠ [] →
    (∀ name ∈ names, PlainName name) →
    (∀ front back elements, names = front ++ back → back ≠ [] →
      (Json.object members).valueAt front ≠ some (.array elements)) →
    PathExact platform tree (.object members) names element := by
  intro located
  have noArray : ∀ front back elements, [text "x", text "b"] = front ++ back → back ≠ [] →
      (Json.object twoLevels).valueAt front ≠ some (.array elements) := by
    intro front back elements split more
    rcases front with _ | ⟨first, rest⟩
    · simp [valueAt]
    · simp only [List.cons_append, List.cons.injEq] at split
      have missing : AssocMap.find (text "x") twoLevels = none := by decide
      simp [← split.1, valueAt, missing]
  obtain ⟨_, value, _, leads, _⟩ := located .x64 twoLevels twoLevelsTree [text "x", text "b"]
    .int32 (by decide) (by decide) rfl (by simp) (by decide) noArray ⟨⟨[], text "b"⟩, none⟩ rfl
  have missing : AssocMap.find (text "x") twoLevels = none := by decide
  simp [valueAt, missing] at leads

end SocketEvents
