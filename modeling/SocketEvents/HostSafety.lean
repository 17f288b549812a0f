import SocketEvents.PayloadIntegrity

/-!
Which calls of plugins crash the host, in any state a run reaches: those without a key, those
that look a key up with the walker it cannot survive, and no others.
-/

namespace SocketEvents

open Execution Transition

/-- A native is given no key, or one of the three that walk a key the walker does not survive. -/
def PluginCall.Crashes (tree : EventArgs) : PluginCall → Prop
  | .read _ none => True
  | .read native (some key) => native.getsValue = false ∧ ¬ tree.Walkable key
  | .deleteHandle => False
  | .listeners _ => False

def Extension.treeOf (handle : Handle) (extension : Extension) : Option EventArgs :=
  (AssocMap.find handle extension.handles).bind extension.store.objects.load

structure Holds (handle : Handle) (tree : EventArgs) (extension : Extension) : Prop where
  sound : extension.Sound none
  kept : ∀ args, AssocMap.find handle extension.handles = some args →
    extension.store.objects.load args = some tree

section
variable {platform : Platform} {sourceMod : SourceMod} {extension : Extension} {handle : Handle}
  {tree : EventArgs}

theorem EventArgsNative.not_answers_iff {native : EventArgsNative} {key : CString} :
    ¬ native.Answers tree key ↔ native.getsValue = false ∧ ¬ tree.Walkable key := by
  simp [EventArgsNative.Answers]

theorem runCall_leaves (listener : Listener) (call : PluginCall)
    (holds : Holds handle tree extension) :
    Leaves (Holds handle tree) (call.Crashes tree)
      ((runCall platform listener handle call).run extension) := by
  obtain ⟨sound, kept⟩ := holds
  cases call with
  | read native key =>
      simp only [runCall]
      cases valid : AssocMap.find handle extension.handles with
      | none =>
          rw [run_readNative_invalid platform listener native key valid]
          exact ⟨sound.congr rfl rfl rfl rfl, kept⟩
      | some args =>
          cases key with
          | none =>
              rw [run_readNative_null platform listener native valid]
              trivial
          | some key =>
              have stored := kept args valid
              rcases native.readsIf platform (sound.regular args tree stored) key with
                ⟨_, result, returned⟩ | ⟨silent, defect, crashed⟩
              · rw [run_readNative valid stored returned]
                exact ⟨sound.congr rfl rfl rfl rfl, kept⟩
              · rw [run_readNative_crash valid stored crashed]
                exact EventArgsNative.not_answers_iff.mp silent
  | deleteHandle =>
      simp only [runCall]
      cases valid : AssocMap.find handle extension.handles with
      | none =>
          rw [run_deleteHandle_invalid valid]
          exact ⟨sound, kept⟩
      | some args =>
          obtain ⟨objects, freed⟩ := Heap.free_isSome (sound.live_of_handle valid)
          rw [run_deleteHandle valid freed]
          refine ⟨sound.deleted valid freed, ?_⟩
          intro other found
          simp [Extension.destroyed, Extension.closed, AssocMap.find_erase] at found
  | listeners native =>
      have sound' := sound.listeners listener.plugin native
      obtain ⟨_, _, same⟩ := native.run_frame listener.plugin extension
      have ran : (runCall platform listener handle (.listeners native)).run extension =
          .ok () (native.run listener.plugin extension) := rfl
      rw [ran]
      rw [same] at sound' ⊢
      exact ⟨sound', kept⟩

theorem runCallback_leaves_holding (listener : Listener) (holds : Holds handle tree extension) :
    Leaves (Holds handle tree) (∃ call ∈ sourceMod.callback listener, call.Crashes tree)
      ((runCallback platform sourceMod handle listener).run extension) := by
  have called : Holds handle tree (extension.calling handle [listener]) :=
    ⟨holds.sound.calling handle [listener], holds.kept⟩
  have unfolded : (runCallback platform sourceMod handle listener).run extension =
      (guarded (fun _ => true)
        ((sourceMod.callback listener).forM (runCall platform listener handle))
        (return ())).run (extension.calling handle [listener]) := rfl
  rw [unfolded]
  refine Leaves.guarded (Leaves.forM called ?_)
  intro call member state held
  exact (runCall_leaves listener call held).imp (fun _ => id) fun crashes =>
    ⟨call, member, crashes⟩

theorem run_dispatch_safe {message : EventMessage} {args : ArgsRef}
    (sound : extension.Sound (some args))
    (stored : extension.store.objects.load args = some tree) :
    (∃ after, (dispatchMessage platform sourceMod message args).run extension = .ok () after) ∨
      ∃ listener ∈ (extension.forwardOf message.name).functions,
        ∃ call ∈ sourceMod.callback listener, call.Crashes tree := by
  rcases run_dispatchMessage platform sourceMod message sound with ⟨after, ran, _⟩ |
    ⟨_, defect, after, crashed⟩
  · exact .inl ⟨after, ran⟩
  · obtain ⟨objects, freed⟩ := Heap.free_isSome sound.live_inHand
    cases found : AssocMap.find message.name extension.eventForwards with
    | none =>
        rw [run_dispatch_discarded platform sourceMod found freed] at crashed
        cases crashed
    | some forward =>
        by_cases created : sourceMod.nextError extension = 0
        · have fresh := sourceMod.nextHandle_fresh extension
          have opened : Holds (sourceMod.nextHandle extension) tree
              (extension.opened message forward (sourceMod.nextHandle extension) args) := by
            refine ⟨sound.opened message forward fresh, ?_⟩
            intro other valid
            rw [Dispatched.find_opened fresh message forward args] at valid
            obtain rfl := Option.some.inj valid
            exact stored
          have served : Leaves (Holds (sourceMod.nextHandle extension) tree)
              (∃ listener ∈ (extension.forwardOf message.name).functions,
                ∃ call ∈ sourceMod.callback listener, call.Crashes tree)
              (((sourceMod.callOrder (extension.forwardOf message.name).functions).forM
                (runCallback platform sourceMod (sourceMod.nextHandle extension))).run
                  (extension.opened message forward (sourceMod.nextHandle extension) args)) := by
            refine .forM opened fun listener member state held => ?_
            exact (runCallback_leaves_holding listener held).imp (fun _ => id) fun crashes =>
              ⟨listener, (sourceMod.callsEach _).mem_iff.mp member, crashes⟩
          rw [run_dispatch_executed platform args found created
            (forwardOf_of_find sound.forwards found)] at crashed
          revert served crashed
          cases ((sourceMod.callOrder (extension.forwardOf message.name).functions).forM
              (runCallback platform sourceMod (sourceMod.nextHandle extension))).run
                (extension.opened message forward (sourceMod.nextHandle extension) args) with
          | ok _ state => simp
          | error fault state =>
              simp only [EStateM.Result.error.injEq]
              rintro ⟨rfl, _⟩ served
              exact .inr served
        · rw [run_dispatch_handleError platform found created freed] at crashed
          cases crashed

/-- Exactly the calls that `PluginCall.Crashes` names do not come to an end. -/
def Extension.CallsEnd (platform : Platform) (extension : Extension) : Prop :=
  ∀ listener handle call,
    (∃ after, Ends ((runCall platform listener handle call).run extension) after) ↔
      ¬ ∃ tree, extension.treeOf handle = some tree ∧ call.Crashes tree

/-- What is left that can crash the game thread, with functions that call what they like and with
those of `SourceMod.callback`. -/
structure System.Safe (platform : Platform) (sourceMod : SourceMod) (system : System) : Prop where
  calls : system.phase = .outside → system.extension.CallsEnd platform
  executing : ∀ message ∈ system.phase.inFlight, ∀ args serving, message.args = some args →
    Executing platform sourceMod message args system.extension serving →
      serving.extension.CallsEnd platform
  dispatches : ∀ message ∈ system.phase.inFlight, ∃ args tree, message.args = some args ∧
    system.extension.store.objects.load args = some tree ∧
      ((∃ after, (dispatchMessage platform sourceMod message args).run system.extension =
          .ok () after) ∨
        ∃ listener ∈ (system.extension.forwardOf message.name).functions,
          ∃ call ∈ sourceMod.callback listener, call.Crashes tree)

theorem call_ends_iff (sound : extension.Sound none) (listener : Listener) (handle : Handle)
    (call : PluginCall) :
    (∃ after, Ends ((runCall platform listener handle call).run extension) after) ↔
      ¬ ∃ tree, extension.treeOf handle = some tree ∧ call.Crashes tree := by
  cases call with
  | read native key =>
      cases valid : AssocMap.find handle extension.handles with
      | none =>
          refine iff_of_true ⟨extension.afterRead ⟨listener, handle, native, key, none⟩, ?_⟩
            (by simp [Extension.treeOf, valid])
          rw [runCall, run_readNative_invalid platform listener native key valid]
          rfl
      | some args =>
          obtain ⟨tree, stored⟩ := Heap.live_iff_load.mp (sound.live_of_handle valid)
          have shown : extension.treeOf handle = some tree := by
            simp [Extension.treeOf, valid, stored]
          cases key with
          | none =>
              refine iff_of_false ?_ (not_not.mpr ⟨tree, shown, trivial⟩)
              rintro ⟨after, ends⟩
              rw [runCall, run_readNative_null platform listener native valid] at ends
              exact ends
          | some key =>
              rcases native.readsIf platform (sound.regular args tree stored) key with
                ⟨answers, result, returned⟩ | ⟨silent, defect, crashed⟩
              · refine iff_of_true
                  ⟨extension.afterRead ⟨listener, handle, native, some key, some result⟩, ?_⟩ ?_
                · rw [runCall, run_readNative valid stored returned]
                  rfl
                · rintro ⟨other, same, crashes⟩
                  obtain rfl := Option.some.inj (shown.symm.trans same)
                  exact EventArgsNative.not_answers_iff.mpr crashes answers
              · refine iff_of_false ?_ (not_not.mpr ⟨tree, shown,
                  EventArgsNative.not_answers_iff.mp silent⟩)
                rintro ⟨after, ends⟩
                rw [runCall, run_readNative_crash valid stored crashed] at ends
                exact ends
  | deleteHandle =>
      refine iff_of_true ?_ (by simp [PluginCall.Crashes])
      cases valid : AssocMap.find handle extension.handles with
      | none => exact ⟨extension, by rw [runCall, run_deleteHandle_invalid valid]; rfl⟩
      | some args =>
          obtain ⟨objects, freed⟩ := Heap.free_isSome (sound.live_of_handle valid)
          exact ⟨(extension.closed handle).destroyed objects,
            by rw [runCall, run_deleteHandle valid freed]; rfl⟩
  | listeners native => exact iff_of_true ⟨_, rfl⟩ (by simp [PluginCall.Crashes])

theorem host_safe {arriving : Option Config → Json → Prop} {config : Config} {path : List System}
    {system : System}
    (run : Run (HostStep platform sourceMod arriving) (System.start config) path system) :
    system.Safe platform sourceMod := by
  have consistent := consistent_of_hostRun run
  constructor
  · intro outside listener handle call
    have sound := consistent.sound
    rw [outside] at sound
    exact call_ends_iff sound listener handle call
  · intro message member args serving holds executing
    obtain ⟨owned, holds', sound⟩ := consistent.inFlight member
    obtain rfl := Option.some.inj (holds.symm.trans holds')
    obtain ⟨_, keeps⟩ := executing.keeps sound
    exact call_ends_iff keeps.sound
  · intro message member
    obtain ⟨args, holds, sound⟩ := consistent.inFlight member
    obtain ⟨tree, stored⟩ := Heap.live_iff_load.mp sound.live_inHand
    exact ⟨args, tree, holds, stored, run_dispatch_safe sound stored⟩

end

/-- While the second event is dispatched, its function crashes on the tree of the first. -/
theorem host_safe_kept : ∃ extension : Extension,
    (∃ after, Ends ((runCall .x64 ⟨0, 0⟩ 1 (.read .getInt (some (text "count/x")))).run
      extension) after) ∧
    ¬ ∃ after, Ends ((runCall .x64 ⟨0, 0⟩ 1 (.read .isArray (some (text "count/x")))).run
      extension) after := by
  obtain ⟨_, _, _, _, run, dispatching, ⟨serving, executing, valid, tree, stored, lost⟩, _⟩ :=
    keepingPlugins_run
  have shown : serving.extension.treeOf 1 = some tree := by
    simp [Extension.treeOf, valid, stored]
  have calls := (host_safe run).executing _ (by simp [dispatching, Phase.inFlight]) 1 serving rfl
    executing
  refine ⟨serving.extension, (calls _ _ _).mpr ?_, fun ends => (calls _ _ _).mp ends ?_⟩
  · rintro ⟨_, _, gets, _⟩
    simp [EventArgsNative.getsValue] at gets
  · exact ⟨tree, shown, rfl, lost⟩

end SocketEvents
