import SocketEvents.RoundTrip

/-!
The scalar getters on a decoded tree, for any key. They run the same over primitives that
refuse what the callers must not ask, and they leave the tree as it was.
-/

namespace SocketEvents

open Execution Json

section
variable (platform : Platform) (containsKey : ArgsPtr → CString → Lookup Bool)
  (getElement : ElementType → ArgumentPtr → Nat → Lookup (Option ValuePtr))

def arrayStepOver (element : ElementType) (type : EventArgumentType) (key : CString)
    (lastArg : ArgumentPtr) : Lookup WalkStep := do
  let index ← liftThrow (stoi key)
  let argType ← readType lastArg
  if argType = .args then
    let sub ← getElement .eventArgs lastArg (platform.toSizeT index)
    return .next (sub.map ValuePtr.toArgs) none
  else if argType = type then
    return .finish (← getElement element lastArg (platform.toSizeT index))
  else
    return .next none (some lastArg)

def walkStepOver (element : ElementType) (type : EventArgumentType) (key : CString) :
    Option ArgsPtr → Option ArgumentPtr → Lookup WalkStep
  | some lastEventArgs, lastArg => do
      match ← getArgumentWith containsKey lastEventArgs key with
      | some arg =>
          if (← readType arg) = .args then
            return .next ((← getValue .eventArgs arg).map ValuePtr.toArgs) (some arg)
          else
            return .next none (some arg)
      | none => return .next (some lastEventArgs) lastArg
  | none, some lastArg => do
      if ← readIsArray lastArg then
        guarded Exception.isStd (arrayStepOver platform getElement element type key lastArg)
          (return .finish none)
      else
        return .finish none
  | none, none => return .finish none

def getValueIfSameTypeOver (element : ElementType) (type : EventArgumentType)
    (isArray : Bool) :
    List CString → Option ArgsPtr → Option ArgumentPtr → Lookup (Option ValuePtr)
  | [], _, some lastArg => do
      if (← readType lastArg) = type then
        if (← readIsArray lastArg) = isArray then getValue element lastArg else return none
      else
        return none
  | [], _, none => return none
  | key :: rest, lastEventArgs, lastArg => do
      match ← walkStepOver platform containsKey getElement element type key lastEventArgs
        lastArg with
      | .finish result => return result
      | .next lastEventArgs lastArg =>
          getValueIfSameTypeOver element type isArray rest lastEventArgs lastArg

def getterOver (element : ElementType) (key : CString) : Lookup (Option ValuePtr) :=
  getValueIfSameTypeOver platform containsKey getElement element element.tag false
    (getKeyAsPath key) (some []) none

end

section
variable {platform : Platform} {containsKey : ArgsPtr → CString → Lookup Bool}

theorem walkStepOver_eq :
    walkStepOver platform containsKey getArrayValueElement = walkStep platform containsKey := by
  funext element type key lastEventArgs lastArg
  cases lastEventArgs with
  | some args => rfl
  | none => cases lastArg <;> rfl

theorem getValueIfSameTypeOver_eq (element : ElementType) (type : EventArgumentType)
    (isArray : Bool) (path : List CString) (lastEventArgs : Option ArgsPtr)
    (lastArg : Option ArgumentPtr) :
    getValueIfSameTypeOver platform containsKey getArrayValueElement element type isArray path
        lastEventArgs lastArg =
      getValueIfSameTypeFrom platform containsKey element type isArray path lastEventArgs
        lastArg := by
  induction path generalizing lastEventArgs lastArg with
  | nil => cases lastArg <;> rfl
  | cons key rest ih =>
      simp only [getValueIfSameTypeOver, getValueIfSameTypeFrom, walkStepOver_eq]
      congr 1
      funext step
      cases step with
      | finish result => rfl
      | next nextEventArgs nextArg => exact ih nextEventArgs nextArg

theorem getterOf_eq_over (platform : Platform) (element : ElementType) (key : CString) :
    getterOf platform element key =
      getterOver platform (containsKeyAt platform) getArrayValueElement element key := by
  rw [getterOver, getValueIfSameTypeOver_eq]
  cases element <;> rfl

end

/-- Splits the key, and goes on to `GetArgumentWithPath` with a path of one component only. -/
def checkedContainsKey (platform : Platform) (args : ArgsPtr) (key : CString) : Lookup Bool :=
  if (getKeyAsPath key).length = 1 then containsKeyAt platform args key
  else undefined .emptyPath

def Argument.Admits (argument : Argument EventArgs) (element : ElementType) (index : Nat) : Prop :=
  argument.isArray = some true ∧ argument.value.arrayType = some element.tag ∧
    index < argument.length

instance (argument : Argument EventArgs) (element : ElementType) (index : Nat) :
    Decidable (argument.Admits element index) :=
  inferInstanceAs (Decidable (_ ∧ _))

def checkedElement (element : ElementType) (ptr : ArgumentPtr) (index : Nat) :
    Lookup (Option ValuePtr) := do
  let argument ← readArgument ptr
  if (argument.length ≤ index ∧ argument.value.hasValue = true) ∨
      argument.Admits element index then
    getArrayValueElement element ptr index
  else
    undefined .arrayOverrun

theorem checkedContainsKey_answers (platform : Platform) :
    AnswersComponents (checkedContainsKey platform) := by
  intro args name component
  rw [checkedContainsKey, component.getKeyAsPath, List.length_singleton, if_pos rfl]
  exact containsKeyAt_answers platform args name component

section
variable {platform : Platform} {containsKey : ArgsPtr → CString → Lookup Bool} {tree : EventArgs}

theorem run_checkedElement {ptr : ArgumentPtr} {argument : Argument EventArgs}
    (element : ElementType) (index : Nat) (valid : tree.argumentAt ptr = some argument)
    (isArray : argument.isArray = some true)
    (stored : argument.value.arrayType = some element.tag) :
    (checkedElement element ptr index).run tree =
      (getArrayValueElement element ptr index).run tree := by
  have full := argument.value.hasValue_of_arrayType stored
  have passes : (argument.length ≤ index ∧ argument.value.hasValue = true) ∨
      argument.Admits element index := by
    rcases Nat.lt_or_ge index argument.length with inside | beyond
    · exact .inr ⟨isArray, stored, inside⟩
    · exact .inl ⟨beyond, full⟩
  simp [checkedElement, run_readArgument valid, passes]

theorem run_arrayStepOver (platform : Platform) (key : CString) {lastArg : ArgumentPtr}
    {argument : Argument EventArgs} (element : ElementType)
    (valid : tree.argumentAt lastArg = some argument) (consistent : argument.Consistent)
    (isArray : argument.isArray = some true) :
    (arrayStepOver platform checkedElement element element.tag key lastArg).run tree =
      (arrayStep platform element element.tag key lastArg).run tree := by
  cases consistent with
  | scalar type typed notArray _ _ => simp [notArray] at isArray
  | array type typed _ stored _ =>
      cases parsed : stoi key with
      | error exception => simp [arrayStepOver, arrayStep, parsed]
      | ok index =>
          by_cases isArgs : type = .args
          · subst isArgs
            have checked := run_checkedElement .eventArgs (platform.toSizeT index) valid isArray
              stored
            simp [arrayStepOver, arrayStep, parsed, run_readType valid typed, checked]
          · by_cases same : type = element.tag
            · subst same
              have checked := run_checkedElement element (platform.toSizeT index) valid isArray
                stored
              simp [arrayStepOver, arrayStep, parsed, run_readType valid typed, isArgs, checked]
            · simp [arrayStepOver, arrayStep, parsed, run_readType valid typed, isArgs, same]

theorem run_walkStepOver (platform : Platform) {key : CString}
    {lastEventArgs : Option ArgsPtr} {lastArg : Option ArgumentPtr} (element : ElementType)
    (answers : AnswersComponents containsKey) (state : WalkState tree lastEventArgs lastArg)
    (component : Component key) :
    (walkStepOver platform containsKey checkedElement element element.tag key lastEventArgs
        lastArg).run tree =
      .ok (walkOnce platform tree element.tag key lastEventArgs lastArg) tree := by
  rw [← run_walkStep platform element answers state component]
  cases lastEventArgs with
  | some args => rfl
  | none =>
      cases lastArg with
      | none => rfl
      | some ptr =>
          obtain ⟨argument, valid, consistent⟩ := state.argumentAt
          cases flag : argument.isArray with
          | none => cases consistent <;> simp_all
          | some isArray =>
              cases isArray with
              | false => simp [walkStepOver, walkStep, run_readIsArray valid flag]
              | true =>
                  have stepped := run_arrayStepOver platform key element valid consistent flag
                  simp [walkStepOver, walkStep, run_readIsArray valid flag, run_guarded, stepped]

theorem run_getValueIfSameTypeOver (platform : Platform)
    (answers : AnswersComponents containsKey) (element : ElementType) (path : List CString)
    (components : ∀ name ∈ path, Component name)
    {lastEventArgs : Option ArgsPtr} {lastArg : Option ArgumentPtr}
    (state : WalkState tree lastEventArgs lastArg) :
    (getValueIfSameTypeOver platform containsKey checkedElement element element.tag false path
        lastEventArgs lastArg).run tree =
      .ok (walk platform tree element.tag path lastEventArgs lastArg) tree := by
  induction path generalizing lastEventArgs lastArg with
  | nil =>
      have same := run_getValueIfSameTypeFrom platform answers element [] (by simp) state
      cases lastArg <;> exact same
  | cons key rest ih =>
      have component : Component key := components key (by simp)
      have others : ∀ name ∈ rest, Component name :=
        fun name member => components name (List.mem_cons_of_mem _ member)
      have stepped := run_walkStepOver platform element answers state component
      simp only [getValueIfSameTypeOver, walk, EStateM.run_bind, stepped]
      cases outcome : walkOnce platform tree element.tag key lastEventArgs lastArg with
      | finish result => simp
      | next nextEventArgs nextArg => exact ih others (walkOnce_state state component outcome)

end

/-- A getter is the walker over its primitives. No key makes it throw or leave defined behaviour,
and none makes it ask the primitives for what they would refuse. -/
theorem getters_safe (platform : Platform) (json : Json) (tree : EventArgs)
    (wellFormed : json.WellFormed) (decoded : ofJson platform json = .ok tree)
    (element : ElementType) (key : CString) :
    getterOf platform element key =
        getterOver platform (containsKeyAt platform) getArrayValueElement element key ∧
      ∃ result, (getterOf platform element key).run tree = .ok result tree ∧
        (getterOver platform (checkedContainsKey platform) checkedElement element key).run tree =
          .ok result tree := by
  have regular := (completed_filled wellFormed decoded).regular
  have state : WalkState tree (some []) none :=
    walkState_args (EventArgs.deref_nil tree) regular (by simp)
  refine ⟨getterOf_eq_over platform element key, _, run_getterOf platform regular element key, ?_⟩
  exact run_getValueIfSameTypeOver platform (checkedContainsKey_answers platform) element
    (getKeyAsPath key) (getKeyAsPath_components key) state

def safetySample : Json :=
  .object [(text "a", .array [.numberUnsigned 1, .numberUnsigned 2]),
    (text "a/", .numberUnsigned 3)]

theorem getters_safe_sample : ∃ tree result, ofJson .x64 safetySample = .ok tree ∧
    (getterOf .x64 .int32 (text "a//-1")).run tree = .ok result tree ∧
      (getterOver .x64 (checkedContainsKey .x64) checkedElement .int32 (text "a//-1")).run tree =
        .ok result tree := by
  obtain ⟨_, result, safe⟩ := getters_safe .x64 safetySample _ (by decide) rfl .int32 (text "a//-1")
  exact ⟨_, result, rfl, safe⟩

theorem reads_frame (platform : Platform) (json : Json) (tree : EventArgs)
    (wellFormed : json.WellFormed) (decoded : ofJson platform json = .ok tree) :
    ∃ answer : ElementType → CString → Option ValuePtr,
      (∀ element key, (getterOf platform element key).run tree = .ok (answer element key) tree) ∧
      ∀ reads : List (ElementType × CString),
        (reads.mapM fun read => getterOf platform read.1 read.2).run tree =
          .ok (reads.map fun read => answer read.1 read.2) tree := by
  have regular := (completed_filled wellFormed decoded).regular
  refine ⟨_, run_getterOf platform regular, ?_⟩
  intro reads
  induction reads with
  | nil => rfl
  | cons read rest ih =>
      rw [List.mapM_cons, EStateM.run_bind, run_getterOf platform regular]
      simp only [EStateM.run_bind, ih]
      rfl

theorem reads_frame_sample : ∃ tree, ofJson .x64 safetySample = .ok tree ∧
    ∃ answer : ElementType → CString → Option ValuePtr,
      (∀ element key, (getterOf .x64 element key).run tree = .ok (answer element key) tree) ∧
      ∀ reads : List (ElementType × CString),
        (reads.mapM fun read => getterOf .x64 read.1 read.2).run tree =
          .ok (reads.map fun read => answer read.1 read.2) tree :=
  ⟨_, rfl, reads_frame .x64 safetySample _ (by decide) rfl⟩

end SocketEvents
