import SocketEvents.ExtensionCore
import SocketEvents.PathAgreement

/-!
The natives on a regular tree: whatever the key, none throws and all leave the tree as it was.
The scalar ones always return.
-/

namespace SocketEvents

open Execution

theorem AnyValue.element_typed {Args : Type} {value : AnyValue Args} {type : EventArgumentType}
    {index : Nat} (typed : value.arrayType = some type) (inside : index < value.allocated) :
    ∃ any, value.element (some index) = some any ∧ any.scalarType = some type := by
  cases value <;> simp_all [arrayType, element, allocated, scalarType]

section
variable {platform : Platform} {tree : EventArgs}

theorem arrayWalk_finish {type : EventArgumentType} {key : CString} {lastArg : ArgumentPtr}
    {argument : Argument EventArgs} {ptr : ValuePtr}
    (valid : tree.argumentAt lastArg = some argument) (consistent : argument.Consistent)
    (isArray : argument.isArray = some true)
    (finished : arrayWalk platform type key lastArg argument = .finish (some ptr)) :
    ∃ any, tree.read ptr = some any ∧ any.scalarType = some type := by
  unfold arrayWalk at finished
  cases parsed : stoi key with
  | error exception => simp [parsed] at finished
  | ok index =>
      simp only [parsed] at finished
      split at finished
      · simp at finished
      · split at finished
        · rename_i typed
          simp only [WalkStep.finish.injEq] at finished
          split at finished
          · rename_i inside
            simp only [Option.some.injEq] at finished
            cases consistent with
            | scalar _ _ notArray _ _ => simp [notArray] at isArray
            | array stored written _ arrayTyped length =>
                have same : stored = type := Option.some.inj (written.symm.trans typed)
                obtain ⟨any, selected, anyTyped⟩ :=
                  AnyValue.element_typed arrayTyped (length ▸ inside)
                exact ⟨any, by rw [← finished, read_element valid, selected], same ▸ anyTyped⟩
          · simp at finished
        · simp at finished

theorem walk_typed {type : EventArgumentType} {path : List CString}
    {lastEventArgs : Option ArgsPtr} {lastArg : Option ArgumentPtr} {ptr : ValuePtr}
    (state : WalkState tree lastEventArgs lastArg)
    (components : ∀ name ∈ path, Component name)
    (walked : walk platform tree type path lastEventArgs lastArg = some ptr) :
    ∃ any, tree.read ptr = some any ∧ any.scalarType = some type := by
  induction path generalizing lastEventArgs lastArg with
  | nil =>
      cases lastArg with
      | none => simp [walk] at walked
      | some lastArg =>
          obtain ⟨argument, valid, _⟩ := state.argumentAt
          simp only [walk, valid] at walked
          split at walked
          · rename_i typed
            simp only [Option.some.injEq] at walked
            exact ⟨argument.value, by rw [← walked, read_element valid]; rfl, typed⟩
          · simp at walked
  | cons key rest ih =>
      have component : Component key := components key (by simp)
      have others : ∀ name ∈ rest, Component name :=
        fun name member => components name (List.mem_cons_of_mem _ member)
      simp only [walk] at walked
      cases stepped : walkOnce platform tree type key lastEventArgs lastArg with
      | next nextEventArgs nextArg =>
          simp only [stepped] at walked
          exact ih (walkOnce_state state component stepped) others walked
      | finish result =>
          simp only [stepped] at walked
          subst walked
          cases lastEventArgs with
          | some args =>
              simp only [walkOnce] at stepped
              split at stepped <;> simp at stepped
          | none =>
              cases lastArg with
              | none => simp [walkOnce] at stepped
              | some lastArg =>
                  obtain ⟨argument, valid, consistent⟩ := state.argumentAt
                  simp only [walkOnce, valid] at stepped
                  split at stepped
                  · rename_i isArray
                    exact arrayWalk_finish valid consistent isArray stepped
                  · simp at stepped

theorem run_getterOf_typed (platform : Platform) (regular : tree.Regular)
    (element : ElementType) (key : CString) :
    (getterOf platform element key).run tree = .ok none tree ∨
      ∃ ptr any, (getterOf platform element key).run tree = .ok (some ptr) tree ∧
        tree.read ptr = some any ∧ any.scalarType = some element.tag := by
  have run := run_getterOf platform regular element key
  have state : WalkState tree (some []) none :=
    walkState_args (EventArgs.deref_nil tree) regular (by simp)
  cases walked : walk platform tree element.tag (getKeyAsPath key) (some []) none with
  | none => exact .inl (by rw [run, walked])
  | some ptr =>
      obtain ⟨any, read, typed⟩ := walk_typed state (getKeyAsPath_components key) walked
      exact .inr ⟨ptr, any, by rw [run, walked], read, typed⟩

theorem run_readValue {ptr : ValuePtr} {any : AnyValue EventArgs}
    (read : tree.read ptr = some any) : (readValue ptr).run tree = .ok any tree := by
  simp [readValue, read]

theorem run_passOn {α : Type} (regular : tree.Regular) (element : ElementType) (key : CString)
    {pass : AnyValue EventArgs → Lookup α} (missing : α)
    (passes : ∀ any, any.scalarType = some element.tag →
      ∃ result, (pass any).run tree = .ok result tree) :
    ∃ result, (do
      match ← getterOf platform element key with
      | some ptr => pass (← readValue ptr)
      | none => return missing).run tree = .ok result tree := by
  rcases run_getterOf_typed platform regular element key with null |
    ⟨ptr, any, found, read, typed⟩
  · exact ⟨missing, by simp [null]⟩
  · obtain ⟨result, passed⟩ := passes any typed
    exact ⟨result, by simp [found, run_readValue read, passed]⟩

theorem run_smnEventArgsGetString (platform : Platform) (regular : tree.Regular)
    (key : CString) :
    ∃ result, (smnEventArgsGetString platform key).run tree = .ok result tree := by
  refine run_passOn regular .string key (0, []) ?_
  intro any typed
  cases any <;> simp [AnyValue.scalarType, ElementType.tag] at typed
  exact ⟨_, rfl⟩

theorem run_smnEventArgsGetInt (platform : Platform) (regular : tree.Regular) (key : CString) :
    ∃ result, (smnEventArgsGetInt platform key).run tree = .ok result tree := by
  refine run_passOn regular .int32 key 0 ?_
  intro any typed
  cases any <;> simp [AnyValue.scalarType, ElementType.tag] at typed
  exact ⟨_, rfl⟩

theorem run_smnEventArgsGetFloat (platform : Platform) (regular : tree.Regular)
    (key : CString) :
    ∃ result, (smnEventArgsGetFloat platform key).run tree = .ok result tree := by
  refine run_passOn regular .float key 0 ?_
  intro any typed
  cases any <;> simp [AnyValue.scalarType, ElementType.tag] at typed
  exact ⟨_, rfl⟩

theorem run_smnEventArgsGetBool (platform : Platform) (regular : tree.Regular) (key : CString) :
    ∃ result, (smnEventArgsGetBool platform key).run tree = .ok result tree := by
  refine run_passOn regular .bool key 0 ?_
  intro any typed
  cases any <;> simp [AnyValue.scalarType, ElementType.tag] at typed
  exact ⟨_, rfl⟩

def ReadsIf {α : Type} (answers : Prop) (tree : EventArgs) (call : Lookup α) : Prop :=
  (answers ∧ ∃ result, call.run tree = .ok result tree) ∨
    (¬ answers ∧ ∃ defect, call.run tree = .error (.undefined defect) tree)

theorem ReadsIf.map {α β : Type} {answers : Prop} {call : Lookup α}
    (reads : ReadsIf answers tree call) (f : α → β) : ReadsIf answers tree (f <$> call) := by
  rcases reads with ⟨holds, result, returned⟩ | ⟨fails, defect, crashed⟩
  · exact .inl ⟨holds, f result, by simp [returned]⟩
  · exact .inr ⟨fails, defect, by simp [crashed]⟩

/-- A key that `GetArgumentWithPath` survives: one component, or a path below an object. -/
def EventArgs.Walkable (tree : EventArgs) (key : CString) : Prop :=
  match getKeyAsPath key with
  | [] => False
  | [_] => True
  | name :: _ :: _ => tree.holdsObject name = true

theorem run_walker (platform : Platform) (regular : tree.Regular) (key : CString) :
    (tree.Walkable key ∧ (getArgumentWithPath platform key).run tree = .ok none tree) ∨
      (tree.Walkable key ∧ ∃ ptr argument isArray,
        (getArgumentWithPath platform key).run tree = .ok (some ptr) tree ∧
          tree.argumentAt ptr = some argument ∧ argument.isArray = some isArray) ∨
      (¬ tree.Walkable key ∧
        ∃ defect, (getArgumentWithPath platform key).run tree =
          .error (.undefined defect) tree) := by
  rw [run_getArgumentWithPath platform regular key, EventArgs.Walkable]
  have components := getKeyAsPath_components key
  generalize getKeyAsPath key = path at components
  match path with
  | [] => exact .inr (.inr ⟨id, _, rfl⟩)
  | [name] =>
      cases stored : tree.find name with
      | none => exact .inl ⟨trivial, by simp [pathOutcome, stored]⟩
      | some argument =>
          have consistent := regular.consistent (components name (by simp)) stored
          have written : ∃ isArray, argument.isArray = some isArray := by
            cases consistent with
            | scalar _ _ notArray _ _ => exact ⟨false, notArray⟩
            | array _ _ isArray _ _ => exact ⟨true, isArray⟩
          obtain ⟨isArray, written⟩ := written
          refine .inr (.inl ⟨trivial, ⟨[], name⟩, argument, isArray,
            by simp [pathOutcome, stored], ?_, written⟩)
          simp [EventArgs.argumentAt, EventArgs.deref, stored]
  | name :: _ :: _ =>
      by_cases holds : tree.holdsObject name = true
      · exact .inl ⟨holds, by simp [pathOutcome, holds]⟩
      · exact .inr (.inr ⟨holds, _, by simp [pathOutcome, holds]; rfl⟩)

theorem readsIf_containsKey (platform : Platform) (regular : tree.Regular) (key : CString) :
    ReadsIf (tree.Walkable key) tree (smnEventArgsContainsKey platform key) := by
  refine ReadsIf.map ?_ boolCell
  rcases run_walker platform regular key with ⟨walkable, null⟩ |
    ⟨walkable, ptr, argument, isArray, found, stored, written⟩ | ⟨crashes, defect, crashed⟩
  · exact .inl ⟨walkable, _, (null_of_walker null).1⟩
  · exact .inl ⟨walkable, _, (argument_of_walker found stored).1⟩
  · have asked : (getArgumentWithPathAt platform [] (getKeyAsPath key)).run tree =
        .error (.undefined defect) tree := crashed
    exact .inr ⟨crashes, defect, by simp [containsKey, containsKeyAt_eq, asked]⟩

theorem readsIf_isArray (platform : Platform) (regular : tree.Regular) (key : CString) :
    ReadsIf (tree.Walkable key) tree (smnEventArgsIsArray platform key) := by
  rcases run_walker platform regular key with ⟨walkable, null⟩ |
    ⟨walkable, ptr, argument, isArray, found, stored, written⟩ | ⟨crashes, defect, crashed⟩
  · exact .inl ⟨walkable, 0, by simp [smnEventArgsIsArray, null]⟩
  · obtain ⟨_, _, _, _, asked⟩ := argument_of_walker found stored
    exact .inl ⟨walkable, _, asked isArray written⟩
  · exact .inr ⟨crashes, defect, by simp [smnEventArgsIsArray, crashed]⟩

theorem readsIf_getArrayLength (platform : Platform) (regular : tree.Regular) (key : CString) :
    ReadsIf (tree.Walkable key) tree (smnEventArgsGetArrayLength platform key) := by
  rcases run_walker platform regular key with ⟨walkable, null⟩ |
    ⟨walkable, ptr, argument, isArray, found, stored, written⟩ | ⟨crashes, defect, crashed⟩
  · exact .inl ⟨walkable, 0, by simp [smnEventArgsGetArrayLength, null]⟩
  · obtain ⟨_, _, _, cells, _⟩ := argument_of_walker found stored
    exact .inl ⟨walkable, _, cells⟩
  · exact .inr ⟨crashes, defect, by simp [smnEventArgsGetArrayLength, crashed]⟩

namespace EventArgsNative

def getsValue : EventArgsNative → Bool
  | .getString _ | .getInt | .getFloat | .getBool => true
  | .containsKey | .isArray | .getArrayLength => false

def answer (platform : Platform) (tree : EventArgs) (key : CString) (native : EventArgsNative) :
    Option (Cell × CString) :=
  match (native.run platform key).run tree with
  | .ok result _ => some result
  | .error _ _ => none

def Answers (tree : EventArgs) (key : CString) (native : EventArgsNative) : Prop :=
  native.getsValue = true ∨ tree.Walkable key

theorem readsIf (platform : Platform) (regular : tree.Regular) (native : EventArgsNative)
    (key : CString) : ReadsIf (native.Answers tree key) tree (native.run platform key) := by
  have gets : ∀ {call : Lookup Cell}, (∃ cell, call.run tree = .ok cell tree) →
      ∃ result, (do return (← call, ([] : CString)) : Lookup _).run tree = .ok result tree := by
    rintro call ⟨cell, returned⟩
    exact ⟨(cell, []), by simp [returned]⟩
  have walks : ∀ {call : Lookup Cell}, ReadsIf (tree.Walkable key) tree call →
      ReadsIf (false = true ∨ tree.Walkable key) tree (do return (← call, ([] : CString))) := by
    intro call reads
    rw [or_iff_right (by simp)]
    exact reads.map (·, [])
  cases native with
  | getString _ => exact .inl ⟨.inl rfl, run_smnEventArgsGetString platform regular key⟩
  | getInt => exact .inl ⟨.inl rfl, gets (run_smnEventArgsGetInt platform regular key)⟩
  | getFloat => exact .inl ⟨.inl rfl, gets (run_smnEventArgsGetFloat platform regular key)⟩
  | getBool => exact .inl ⟨.inl rfl, gets (run_smnEventArgsGetBool platform regular key)⟩
  | containsKey => exact walks (readsIf_containsKey platform regular key)
  | isArray => exact walks (readsIf_isArray platform regular key)
  | getArrayLength => exact walks (readsIf_getArrayLength platform regular key)

end EventArgsNative

end

end SocketEvents
