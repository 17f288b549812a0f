import SocketEvents.EventArgsCore

/-!
What the walkers do on a regular tree, one whose arguments under reachable names are
consistent: they return, they leave the tree alone, and they follow the pure walk below.
-/

namespace SocketEvents

open Execution

namespace EventArgs

theorem deref_nil (args : EventArgs) : args.deref [] = some args := rfl

theorem deref_append (front back : ArgsPtr) (args : EventArgs) :
    args.deref (front ++ back) = (args.deref front).bind (deref back) := by
  induction front generalizing args with
  | nil => rfl
  | cons step rest ih =>
      simp only [List.cons_append, deref]
      cases args.child step with
      | none => rfl
      | some sub => simp [ih]

theorem deref_toArgs (ptr : ValuePtr) (args : EventArgs) :
    args.deref ptr.toArgs =
      (args.deref ptr.argument.args).bind (child (ptr.argument.key, ptr.element)) := by
  rw [ValuePtr.toArgs, deref_append]
  cases args.deref ptr.argument.args with
  | none => rfl
  | some holder =>
      simp only [Option.bind_some, deref]
      cases holder.child (ptr.argument.key, ptr.element) <;> rfl

def argumentAt (ptr : ArgumentPtr) (tree : EventArgs) : Option (Argument EventArgs) :=
  (tree.deref ptr.args).bind (find ptr.key)

theorem find_insert (key other : CString) (argument : Argument EventArgs) (args : EventArgs) :
    (args.insert key argument).find other =
      if other = key then some argument else args.find other :=
  AssocMap.find_insert key other argument args.argumentMap

end EventArgs

def AnyValue.scalarType {Args : Type} : AnyValue Args → Option EventArgumentType
  | .empty => some .none
  | .nullptr => some .none
  | .string _ => some .string
  | .int32 _ => some .int32
  | .float _ => some .float
  | .bool _ => some .bool
  | .eventArgs _ => some .args
  | _ => none

def AnyValue.arrayType {Args : Type} : AnyValue Args → Option EventArgumentType
  | .stringArray _ => some .string
  | .int32Array _ => some .int32
  | .floatArray _ => some .float
  | .boolArray _ => some .bool
  | .eventArgsArray _ => some .args
  | _ => none

/-- Every field is initialised, and `value`, `type`, `isArray` and `length` agree. -/
inductive Argument.Consistent {Args : Type} (argument : Argument Args) : Prop
  | scalar (type : EventArgumentType) : argument.type = some type →
      argument.isArray = some false → argument.value.scalarType = some type →
      argument.length = 0 → argument.Consistent
  | array (type : EventArgumentType) : argument.type = some type →
      argument.isArray = some true → argument.value.arrayType = some type →
      argument.length = argument.value.allocated → argument.Consistent

def ElementType.tag : ElementType → EventArgumentType
  | .string => .string
  | .int32 => .int32
  | .float => .float
  | .bool => .bool
  | .eventArgs => .args

section
variable {Args : Type} (element : ElementType) (value : AnyValue Args)

theorem AnyValue.holds_iff : value.holds element = true ↔ value.scalarType = some element.tag := by
  cases element <;> cases value <;> simp [holds, scalarType, ElementType.tag]

theorem AnyValue.holdsArray_iff :
    value.holdsArray element = true ↔ value.arrayType = some element.tag := by
  cases element <;> cases value <;> simp [holdsArray, arrayType, ElementType.tag]

theorem AnyValue.hasValue_of_scalarType {type : EventArgumentType}
    (typed : value.scalarType = some type) (real : type ≠ .none) : value.hasValue = true := by
  cases value <;> simp_all [scalarType, hasValue]

theorem AnyValue.hasValue_of_arrayType {type : EventArgumentType}
    (typed : value.arrayType = some type) : value.hasValue = true := by
  cases value <;> simp_all [arrayType, hasValue]

theorem AnyValue.scalarType_of_arrayType {type : EventArgumentType}
    (typed : value.arrayType = some type) : value.scalarType = none := by
  cases value <;> simp_all [arrayType, scalarType]

theorem ElementType.tag_ne_none : element.tag ≠ .none := by
  cases element <;> simp [tag]

end

/-- Arguments under names the splitter can emit are consistent, at every depth. -/
inductive EventArgs.Regular : EventArgs → Prop
  | intro (args : EventArgs) :
      (∀ name argument, Component name → args.find name = some argument →
        argument.Consistent) →
      (∀ name element sub, Component name → args.child (name, element) = some sub →
        sub.Regular) →
      args.Regular

theorem EventArgs.Regular.consistent {args : EventArgs} {name : CString}
    {argument : Argument EventArgs} (regular : args.Regular) (component : Component name)
    (found : args.find name = some argument) : argument.Consistent := by
  cases regular with
  | intro _ consistent _ => exact consistent name argument component found

theorem EventArgs.Regular.child {args sub : EventArgs} {name : CString} {element : Option Nat}
    (regular : args.Regular) (component : Component name)
    (found : args.child (name, element) = some sub) : sub.Regular := by
  cases regular with
  | intro _ _ below => exact below name element sub component found

section
variable {tree : EventArgs}

theorem run_readArgs {ptr : ArgsPtr} {holder : EventArgs} (valid : tree.deref ptr = some holder) :
    (readArgs ptr).run tree = .ok holder tree := by
  simp [readArgs, valid]

theorem run_readArgument {ptr : ArgumentPtr} {argument : Argument EventArgs}
    (valid : tree.argumentAt ptr = some argument) :
    (readArgument ptr).run tree = .ok argument tree := by
  obtain ⟨holder, reached, found⟩ := Option.bind_eq_some_iff.mp valid
  simp [readArgument, run_readArgs reached, found]

theorem run_readType {ptr : ArgumentPtr} {argument : Argument EventArgs}
    {type : EventArgumentType} (valid : tree.argumentAt ptr = some argument)
    (written : argument.type = some type) : (readType ptr).run tree = .ok type tree := by
  simp [readType, run_readArgument valid, written, initialised]

theorem run_readIsArray {ptr : ArgumentPtr} {argument : Argument EventArgs} {isArray : Bool}
    (valid : tree.argumentAt ptr = some argument)
    (written : argument.isArray = some isArray) :
    (readIsArray ptr).run tree = .ok isArray tree := by
  simp [readIsArray, run_readArgument valid, written, initialised]

theorem run_argumentMapAt {args : ArgsPtr} {key : CString} {argument : Argument EventArgs}
    (valid : tree.argumentAt ⟨args, key⟩ = some argument) :
    (argumentMapAt args key).run tree = .ok ⟨args, key⟩ tree := by
  obtain ⟨holder, reached, found⟩ := Option.bind_eq_some_iff.mp valid
  simp only at reached found
  simp [argumentMapAt, run_readArgs reached, found]

theorem run_getValue {ptr : ArgumentPtr} {argument : Argument EventArgs}
    (element : ElementType) (valid : tree.argumentAt ptr = some argument)
    (consistent : argument.Consistent) :
    (getValue element ptr).run tree =
      .ok (if argument.value.scalarType = some element.tag then some ⟨ptr, none⟩ else none)
        tree := by
  have noValue : argument.value.hasValue = false →
      ¬ argument.value.scalarType = some element.tag := by
    intro empty typed
    have full := argument.value.hasValue_of_scalarType typed element.tag_ne_none
    simp [full] at empty
  cases consistent with
  | scalar type typed isArray stored length =>
      cases full : argument.value.hasValue with
      | false => simp [getValue, run_readArgument valid, full, noValue full]
      | true =>
          by_cases held : argument.value.holds element = true
          · have same := (argument.value.holds_iff element).mp held
            simp [getValue, run_readArgument valid, full, initialised, isArray, held, same]
          · have other := mt (argument.value.holds_iff element).mpr held
            simp [getValue, run_readArgument valid, full, initialised, isArray, held, other]
  | array type typed isArray stored length =>
      have full := argument.value.hasValue_of_arrayType stored
      have notScalar := argument.value.scalarType_of_arrayType stored
      simp [getValue, run_readArgument valid, full, initialised, isArray, notScalar]

theorem run_getArrayValueElement {ptr : ArgumentPtr} {argument : Argument EventArgs}
    (element : ElementType) (index : Nat) (valid : tree.argumentAt ptr = some argument)
    (isArray : argument.isArray = some true)
    (stored : argument.value.arrayType = some element.tag)
    (length : argument.length = argument.value.allocated) :
    (getArrayValueElement element ptr index).run tree =
      .ok (if index < argument.length then some ⟨ptr, some index⟩ else none) tree := by
  have full := argument.value.hasValue_of_arrayType stored
  have held := (argument.value.holdsArray_iff element).mpr stored
  by_cases inside : index < argument.length
  · have allocated : index < argument.value.allocated := by omega
    simp [getArrayValueElement, getValueAsArray, run_readArgument valid, full, held, initialised,
      isArray, inside, allocated, Nat.not_le.mpr inside]
  · simp [getArrayValueElement, run_readArgument valid, full, inside, Nat.le_of_not_lt inside]

end

/-! The pure walk -/

section
variable (platform : Platform) (tree : EventArgs) (type : EventArgumentType)

def arrayWalk (key : CString) (lastArg : ArgumentPtr) (argument : Argument EventArgs) : WalkStep :=
  match stoi key with
  | .error _ => .finish none
  | .ok index =>
      let selected : Option ValuePtr :=
        if platform.toSizeT index < argument.length then
          some ⟨lastArg, some (platform.toSizeT index)⟩
        else none
      if argument.type = some .args then .next (selected.map ValuePtr.toArgs) none
      else if argument.type = some type then .finish selected
      else .next none (some lastArg)

/-- One step of the walk. A name that is not found leaves both pointers as they were. -/
def walkOnce (key : CString) : Option ArgsPtr → Option ArgumentPtr → WalkStep
  | some args, lastArg =>
      match tree.argumentAt ⟨args, key⟩ with
      | some argument =>
          .next (if argument.value.scalarType = some .args then
              some (ValuePtr.toArgs ⟨⟨args, key⟩, none⟩)
            else none) (some ⟨args, key⟩)
      | none => .next (some args) lastArg
  | none, some lastArg =>
      match tree.argumentAt lastArg with
      | some argument =>
          if argument.isArray = some true then arrayWalk platform type key lastArg argument
          else .finish none
      | none => .finish none
  | none, none => .finish none

def walk : List CString → Option ArgsPtr → Option ArgumentPtr → Option ValuePtr
  | [], _, some lastArg =>
      match tree.argumentAt lastArg with
      | some argument =>
          if argument.value.scalarType = some type then some ⟨lastArg, none⟩ else none
      | none => none
  | [], _, none => none
  | key :: rest, lastEventArgs, lastArg =>
      match walkOnce platform tree type key lastEventArgs lastArg with
      | .finish result => result
      | .next lastEventArgs lastArg => walk rest lastEventArgs lastArg

end

theorem walk_found {platform : Platform} {tree : EventArgs} {type : EventArgumentType}
    {args : ArgsPtr} {name : CString} {argument : Argument EventArgs}
    (stored : tree.argumentAt ⟨args, name⟩ = some argument) (rest : List CString)
    (lastArg : Option ArgumentPtr) :
    walk platform tree type (name :: rest) (some args) lastArg =
      walk platform tree type rest
        (if argument.value.scalarType = some .args then
          some (ValuePtr.toArgs ⟨⟨args, name⟩, none⟩) else none) (some ⟨args, name⟩) := by
  simp [walk, walkOnce, stored]

structure WalkState (tree : EventArgs) (lastEventArgs : Option ArgsPtr)
    (lastArg : Option ArgumentPtr) : Prop where
  args : ∀ ptr ∈ lastEventArgs, ∃ holder, tree.deref ptr = some holder ∧ holder.Regular
  argument : ∀ ptr ∈ lastArg, ∃ argument holder, tree.deref ptr.args = some holder ∧
    holder.Regular ∧ Component ptr.key ∧ holder.find ptr.key = some argument

theorem WalkState.argumentAt {tree : EventArgs} {lastEventArgs : Option ArgsPtr}
    {ptr : ArgumentPtr} (state : WalkState tree lastEventArgs (some ptr)) :
    ∃ argument, tree.argumentAt ptr = some argument ∧ argument.Consistent := by
  obtain ⟨argument, holder, reached, regular, component, found⟩ := state.argument ptr rfl
  exact ⟨argument, by simp [EventArgs.argumentAt, reached, found],
    regular.consistent component found⟩

def hasEntry (args : ArgsPtr) (name : CString) : Lookup Bool := do
  return ((← readArgs args).find name).isSome

def AnswersComponents (containsKey : ArgsPtr → CString → Lookup Bool) : Prop :=
  ∀ args name, Component name → containsKey args name = hasEntry args name

section
variable {platform : Platform} {containsKey : ArgsPtr → CString → Lookup Bool} {tree : EventArgs}

theorem run_getArgumentWith {args : ArgsPtr} {holder : EventArgs} {name : CString}
    (answers : AnswersComponents containsKey) (reached : tree.deref args = some holder)
    (component : Component name) :
    (getArgumentWith containsKey args name).run tree =
      .ok (if (holder.find name).isSome then some ⟨args, name⟩ else none) tree := by
  have asked := answers args name component
  cases found : holder.find name with
  | none => simp [getArgumentWith, asked, hasEntry, run_readArgs reached, found]
  | some argument =>
      have valid : tree.argumentAt ⟨args, name⟩ = some argument := by
        simp [EventArgs.argumentAt, reached, found]
      simp [getArgumentWith, asked, hasEntry, run_readArgs reached, found,
        run_argumentMapAt valid]

theorem run_arrayStep (platform : Platform) (key : CString) {lastArg : ArgumentPtr}
    {argument : Argument EventArgs} (element : ElementType)
    (valid : tree.argumentAt lastArg = some argument)
    (consistent : argument.Consistent) (isArray : argument.isArray = some true) :
    (guarded Exception.isStd (arrayStep platform element element.tag key lastArg)
        (return .finish none)).run tree =
      .ok (arrayWalk platform element.tag key lastArg argument) tree := by
  rw [run_guarded]
  cases consistent with
  | scalar type typed notArray _ _ => simp [notArray] at isArray
  | array type typed _ stored length =>
      cases parsed : stoi key with
      | error exception =>
          have std := stoi_error_isStd parsed
          simp [arrayStep, parsed, arrayWalk, std]
      | ok index =>
          by_cases isArgs : type = .args
          · subst isArgs
            have fetched := run_getArrayValueElement .eventArgs (platform.toSizeT index) valid
              isArray stored length
            simp [arrayStep, arrayWalk, parsed, run_readType valid typed, typed, fetched]
          · by_cases same : type = element.tag
            · subst same
              have fetched := run_getArrayValueElement element (platform.toSizeT index) valid
                isArray stored length
              simp [arrayStep, arrayWalk, parsed, run_readType valid typed, typed, fetched,
                isArgs]
            · simp [arrayStep, arrayWalk, parsed, run_readType valid typed, typed, isArgs, same]

theorem run_walkStep (platform : Platform) {key : CString}
    {lastEventArgs : Option ArgsPtr} {lastArg : Option ArgumentPtr} (element : ElementType)
    (answers : AnswersComponents containsKey) (state : WalkState tree lastEventArgs lastArg)
    (component : Component key) :
    (walkStep platform containsKey element element.tag key lastEventArgs lastArg).run tree =
      .ok (walkOnce platform tree element.tag key lastEventArgs lastArg) tree := by
  cases lastEventArgs with
  | some args =>
      obtain ⟨holder, reached, regular⟩ := state.args args rfl
      have fetched := run_getArgumentWith answers reached component
      cases found : holder.find key with
      | none =>
          have absent : tree.argumentAt ⟨args, key⟩ = none := by
            simp [EventArgs.argumentAt, reached, found]
          simp [walkStep, fetched, found, walkOnce, absent]
      | some argument =>
          have valid : tree.argumentAt ⟨args, key⟩ = some argument := by
            simp [EventArgs.argumentAt, reached, found]
          have consistent := regular.consistent component found
          have fetchedValue := run_getValue .eventArgs valid consistent
          cases consistent with
          | scalar type typed notArray stored length =>
              by_cases isArgs : type = .args
              · subst isArgs
                simp [walkStep, fetched, found, walkOnce, valid, run_readType valid typed,
                  fetchedValue, stored, ElementType.tag]
              · simp [walkStep, fetched, found, walkOnce, valid, run_readType valid typed,
                  isArgs, stored]
          | array type typed isArray stored length =>
              have notScalar := argument.value.scalarType_of_arrayType stored
              by_cases isArgs : type = .args
              · subst isArgs
                simp [walkStep, fetched, found, walkOnce, valid, run_readType valid typed,
                  fetchedValue, notScalar]
              · simp [walkStep, fetched, found, walkOnce, valid, run_readType valid typed,
                  isArgs, notScalar]
  | none =>
      cases lastArg with
      | none => simp [walkStep, walkOnce]
      | some ptr =>
          obtain ⟨argument, valid, consistent⟩ := state.argumentAt
          cases consistent with
          | scalar type typed notArray stored length =>
              simp [walkStep, walkOnce, valid, run_readIsArray valid notArray, notArray]
          | array type typed isArray stored length =>
              have stepped := run_arrayStep platform key element valid
                (.array type typed isArray stored length) isArray
              simp [walkStep, walkOnce, valid, run_readIsArray valid isArray, isArray, stepped]

end

section
variable {platform : Platform} {tree : EventArgs}

theorem walkState_args {args : ArgsPtr} {holder : EventArgs} {lastArg : Option ArgumentPtr}
    (reached : tree.deref args = some holder) (regular : holder.Regular)
    (argument : ∀ ptr ∈ lastArg, ∃ argument holder, tree.deref ptr.args = some holder ∧
      holder.Regular ∧ Component ptr.key ∧ holder.find ptr.key = some argument) :
    WalkState tree (some args) lastArg :=
  ⟨fun ptr member => by
    rw [Option.mem_some_iff] at member
    exact ⟨holder, member ▸ reached, regular⟩, argument⟩

theorem child_of_element {holder sub : EventArgs} {argument : Argument EventArgs}
    {name : CString} {element : Option Nat} (found : holder.find name = some argument)
    (inside : argument.value.element element = some (.eventArgs sub)) :
    holder.child (name, element) = some sub := by
  simp [EventArgs.child, found, inside]

theorem AnyValue.element_of_scalarType {Args : Type} {value : AnyValue Args}
    (typed : value.scalarType = some .args) :
    ∃ sub, value.element none = some (.eventArgs sub) := by
  cases value <;> simp_all [scalarType, element]

theorem AnyValue.element_of_arrayType {Args : Type} {value : AnyValue Args} {index : Nat}
    (typed : value.arrayType = some .args) (inside : index < value.allocated) :
    ∃ sub, value.element (some index) = some (.eventArgs sub) := by
  cases value <;> simp_all [arrayType, element, allocated]

theorem deref_toArgs_of_child (ptr : ValuePtr) {holder sub : EventArgs}
    (reached : tree.deref ptr.argument.args = some holder)
    (below : holder.child (ptr.argument.key, ptr.element) = some sub) :
    tree.deref ptr.toArgs = some sub := by
  rw [EventArgs.deref_toArgs, reached]
  exact below

section
variable {ptr : ArgumentPtr} {holder : EventArgs} {argument : Argument EventArgs}

theorem walkState_found (reached : tree.deref ptr.args = some holder) (regular : holder.Regular)
    (component : Component ptr.key) (found : holder.find ptr.key = some argument) :
    WalkState tree
      (if argument.value.scalarType = some .args then some (ValuePtr.toArgs ⟨ptr, none⟩) else none)
      (some ptr) := by
  have here : ∀ other ∈ some ptr, ∃ argument holder, tree.deref other.args = some holder ∧
      holder.Regular ∧ Component other.key ∧ holder.find other.key = some argument := by
    intro other member
    rw [Option.mem_some_iff] at member
    exact member ▸ ⟨argument, holder, reached, regular, component, found⟩
  split
  · rename_i isObject
    obtain ⟨sub, inside⟩ := AnyValue.element_of_scalarType isObject
    have below := child_of_element found inside
    exact walkState_args (deref_toArgs_of_child ⟨ptr, none⟩ reached below)
      (regular.child component below) here
  · exact ⟨by simp, here⟩

theorem walkState_element (reached : tree.deref ptr.args = some holder)
    (regular : holder.Regular) (component : Component ptr.key)
    (found : holder.find ptr.key = some argument) (isArray : argument.isArray = some true)
    (isArgs : argument.type = some .args) (index : Nat) :
    WalkState tree ((if index < argument.length then some (⟨ptr, some index⟩ : ValuePtr)
      else none).map ValuePtr.toArgs) none := by
  by_cases inside : index < argument.length
  · simp only [inside, if_true, Option.map_some]
    cases regular.consistent component found with
    | scalar type typed notArray _ _ => simp [notArray] at isArray
    | array type typed _ stored length =>
        have same : type = .args := by
          rw [typed] at isArgs
          exact Option.some.inj isArgs
        subst same
        obtain ⟨sub, element⟩ := AnyValue.element_of_arrayType stored (length ▸ inside)
        have below := child_of_element found element
        exact walkState_args (deref_toArgs_of_child ⟨ptr, some index⟩ reached below)
          (regular.child component below) (by simp)
  · simp only [inside, if_false, Option.map_none]
    exact ⟨by simp, by simp⟩

end

theorem walkOnce_state {type : EventArgumentType} {key : CString}
    {lastEventArgs nextEventArgs : Option ArgsPtr} {lastArg nextArg : Option ArgumentPtr}
    (state : WalkState tree lastEventArgs lastArg) (component : Component key)
    (stepped : walkOnce platform tree type key lastEventArgs lastArg =
      .next nextEventArgs nextArg) : WalkState tree nextEventArgs nextArg := by
  cases lastEventArgs with
  | some args =>
      obtain ⟨holder, reached, regular⟩ := state.args args rfl
      cases found : holder.find key with
      | none =>
          have absent : tree.argumentAt ⟨args, key⟩ = none := by
            simp [EventArgs.argumentAt, reached, found]
          simp only [walkOnce, absent, WalkStep.next.injEq] at stepped
          obtain ⟨rfl, rfl⟩ := stepped
          exact state
      | some argument =>
          have valid : tree.argumentAt ⟨args, key⟩ = some argument := by
            simp [EventArgs.argumentAt, reached, found]
          simp only [walkOnce, valid, WalkStep.next.injEq] at stepped
          obtain ⟨rfl, rfl⟩ := stepped
          have here : tree.deref (ArgumentPtr.args ⟨args, key⟩) = some holder := reached
          exact walkState_found here regular component found
  | none =>
      cases lastArg with
      | none => simp [walkOnce] at stepped
      | some ptr =>
          obtain ⟨argument, holder, reached, regular, ptrComponent, found⟩ :=
            state.argument ptr rfl
          have valid : tree.argumentAt ptr = some argument := by
            simp [EventArgs.argumentAt, reached, found]
          simp only [walkOnce, valid, arrayWalk] at stepped
          split at stepped
          · rename_i isArray
            cases parsed : stoi key with
            | error exception => simp [parsed] at stepped
            | ok index =>
                simp only [parsed] at stepped
                split at stepped
                · rename_i isArgs
                  simp only [WalkStep.next.injEq] at stepped
                  obtain ⟨rfl, rfl⟩ := stepped
                  -- a negative index has wrapped around, and is refused with those past the end
                  exact walkState_element reached regular ptrComponent found isArray isArgs
                    (platform.toSizeT index)
                · split at stepped
                  · simp at stepped
                  · simp only [WalkStep.next.injEq] at stepped
                    obtain ⟨rfl, rfl⟩ := stepped
                    exact state
          · simp at stepped

theorem run_getValueIfSameTypeFrom (platform : Platform)
    {containsKey : ArgsPtr → CString → Lookup Bool} (answers : AnswersComponents containsKey)
    (element : ElementType)
    (path : List CString) (components : ∀ name ∈ path, Component name)
    {lastEventArgs : Option ArgsPtr} {lastArg : Option ArgumentPtr}
    (state : WalkState tree lastEventArgs lastArg) :
    (getValueIfSameTypeFrom platform containsKey element element.tag false path
        lastEventArgs lastArg).run tree =
      .ok (walk platform tree element.tag path lastEventArgs lastArg) tree := by
  induction path generalizing lastEventArgs lastArg with
  | nil =>
      -- the type and the array flag are compared first, so the final cast always succeeds
      cases lastArg with
      | none => simp [getValueIfSameTypeFrom, walk]
      | some ptr =>
          obtain ⟨argument, valid, consistent⟩ := state.argumentAt
          have fetched := run_getValue element valid consistent
          cases consistent with
          | scalar type typed notArray stored length =>
              by_cases same : type = element.tag
              · simp [getValueIfSameTypeFrom, walk, valid, run_readType valid typed, same,
                  run_readIsArray valid notArray, fetched]
              · simp [getValueIfSameTypeFrom, walk, valid, run_readType valid typed, same, stored]
          | array type typed isArray stored length =>
              have notScalar := argument.value.scalarType_of_arrayType stored
              by_cases same : type = element.tag
              · simp [getValueIfSameTypeFrom, walk, valid, run_readType valid typed, same,
                  run_readIsArray valid isArray, notScalar]
              · simp [getValueIfSameTypeFrom, walk, valid, run_readType valid typed, same,
                  notScalar]
  | cons key rest ih =>
      have component : Component key := components key (by simp)
      have others : ∀ name ∈ rest, Component name :=
        fun name member => components name (List.mem_cons_of_mem _ member)
      have stepped := run_walkStep platform element answers state component
      simp only [getValueIfSameTypeFrom, walk, EStateM.run_bind, stepped]
      cases outcome : walkOnce platform tree element.tag key lastEventArgs lastArg with
      | finish result => simp
      | next nextEventArgs nextArg => exact ih others (walkOnce_state state component outcome)

theorem run_getEventArgsWith (platform : Platform) {containsKey : ArgsPtr → CString → Lookup Bool}
    {args : ArgsPtr} {holder : EventArgs} (answers : AnswersComponents containsKey)
    (reached : tree.deref args = some holder) (regular : holder.Regular) (key : CString) :
    (getEventArgsWith platform containsKey args key).run tree =
      .ok (walk platform tree .args (getKeyAsPath key) (some args) none) tree :=
  run_getValueIfSameTypeFrom platform answers .eventArgs (getKeyAsPath key)
    (getKeyAsPath_components key)
    (walkState_args reached regular (by simp))

end

/-! The call depth -/

section
variable {platform : Platform}

theorem containsKeyWithin_answers (platform : Platform) (depth : Nat) :
    AnswersComponents (containsKeyWithin platform (depth + 1)) := by
  intro args name component
  simp only [containsKeyWithin, component.getKeyAsPath, getArgumentWithPathFrom, hasEntry,
    bind_assoc]
  congr 1
  funext holder
  cases holder.find name <;> simp

theorem containsKeyAt_answers (platform : Platform) :
    AnswersComponents (containsKeyAt platform) :=
  containsKeyWithin_answers platform 1

theorem getValueIfSameTypeFrom_congr {first second : ArgsPtr → CString → Lookup Bool}
    (firstAnswers : AnswersComponents first) (secondAnswers : AnswersComponents second)
    (element : ElementType) (type : EventArgumentType) (isArray : Bool) (path : List CString)
    (components : ∀ name ∈ path, Component name)
    (lastEventArgs : Option ArgsPtr) (lastArg : Option ArgumentPtr) :
    getValueIfSameTypeFrom platform first element type isArray path lastEventArgs lastArg =
      getValueIfSameTypeFrom platform second element type isArray path lastEventArgs lastArg := by
  induction path generalizing lastEventArgs lastArg with
  | nil => cases lastArg <;> rfl
  | cons key rest ih =>
      have component : Component key := components key (by simp)
      have same : walkStep platform first element type key lastEventArgs lastArg =
          walkStep platform second element type key lastEventArgs lastArg := by
        cases lastEventArgs with
        | some args =>
            simp only [walkStep, getArgumentWith, firstAnswers args key component,
              secondAnswers args key component]
        | none => cases lastArg <;> rfl
      simp only [getValueIfSameTypeFrom, same]
      congr 1
      funext step
      cases step with
      | finish result => rfl
      | next nextEventArgs nextArg =>
          exact ih (fun name member => components name (List.mem_cons_of_mem _ member)) _ _

theorem getEventArgsWith_congr {first second : ArgsPtr → CString → Lookup Bool}
    (firstAnswers : AnswersComponents first) (secondAnswers : AnswersComponents second) :
    getEventArgsWith platform first = getEventArgsWith platform second := by
  funext args key
  exact getValueIfSameTypeFrom_congr firstAnswers secondAnswers .eventArgs .args false
    (getKeyAsPath key) (getKeyAsPath_components key) (some args) none

/-- Two open calls of `ContainsKey` are enough: a deeper stack changes no answer. -/
theorem containsKeyWithin_eq (platform : Platform) (depth : Nat) :
    containsKeyWithin platform (depth + 2) = containsKeyAt platform := by
  funext args key
  simp only [containsKeyAt, callDepth, containsKeyWithin.eq_2]
  rw [getEventArgsWith_congr (containsKeyWithin_answers platform depth)
    (containsKeyWithin_answers platform 0)]

theorem containsKeyAt_eq (platform : Platform) (args : ArgsPtr) (key : CString) :
    containsKeyAt platform args key = (do
      return (← getArgumentWithPathAt platform args (getKeyAsPath key)).isSome) := by
  rw [← containsKeyWithin_eq platform 1]
  rfl

end

def EventArgs.holdsObject (name : CString) (args : EventArgs) : Bool :=
  (args.find name).any fun argument => argument.value.scalarType == some .args

/-- What `GetArgumentWithPath` does: it answers a single component, gives null below an
object, and calls through a null pointer below anything else. -/
def pathOutcome (holder : EventArgs) (args : ArgsPtr) :
    List CString → Lookup (Option ArgumentPtr)
  | [] => undefined .emptyPath
  | [name] => return if (holder.find name).isSome then some ⟨args, name⟩ else none
  | name :: _ :: _ => if holder.holdsObject name then return none else undefined .nullEventArgs

section
variable {platform : Platform} {tree holder : EventArgs} {args : ArgsPtr}

theorem walk_component (platform : Platform) (name : CString)
    (reached : tree.deref args = some holder) :
    (walk platform tree .args [name] (some args) none).isSome = holder.holdsObject name := by
  cases found : holder.find name with
  | none =>
      have absent : tree.argumentAt ⟨args, name⟩ = none := by
        simp [EventArgs.argumentAt, reached, found]
      simp [walk, walkOnce, absent, EventArgs.holdsObject, found]
  | some argument =>
      have valid : tree.argumentAt ⟨args, name⟩ = some argument := by
        simp [EventArgs.argumentAt, reached, found]
      by_cases object : argument.value.scalarType = some .args <;>
        simp [walk, walkOnce, valid, EventArgs.holdsObject, found, object]

theorem run_getArgumentWithPathAt (platform : Platform) (reached : tree.deref args = some holder)
    (regular : holder.Regular) (path : List CString)
    (components : ∀ name ∈ path, Component name) :
    (getArgumentWithPathAt platform args path).run tree =
      (pathOutcome holder args path).run tree := by
  match path with
  | [] => rfl
  | [name] =>
      cases found : holder.find name <;>
        simp [getArgumentWithPathAt, getArgumentWithPathFrom, run_readArgs reached, found,
          pathOutcome]
  | name :: next :: rest =>
      have component : Component name := components name (by simp)
      have fetched := run_getEventArgsWith platform
        (containsKeyAt_answers platform) reached regular name
      have walked := walk_component platform name reached
      rw [component.getKeyAsPath] at fetched
      simp only [getArgumentWithPathAt, getArgumentWithPathFrom, getEventArgsAt,
        EStateM.run_bind, fetched, pathOutcome]
      cases found : walk platform tree .args [name] (some args) none with
      | none =>
          rw [found] at walked
          simp [← walked]
      | some sub =>
          rw [found] at walked
          simp [← walked]

end

end SocketEvents
