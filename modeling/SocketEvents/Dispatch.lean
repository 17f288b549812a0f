import SocketEvents.ExtensionRun

/-!
One message in the hands of `OnGameFrame`: the three ways it can end, and who owns its
arguments afterwards.
-/

namespace SocketEvents

open Execution

namespace Extension

def opened (message : EventMessage) (forward : ForwardRef) (handle : Handle) (args : ArgsRef)
    (extension : Extension) : Extension :=
  { extension with
    handles := extension.handles ++ [(handle, args)]
    handlesRequested := extension.handlesRequested + 1
    outcomes := extension.outcomes ++ [(message, .executed forward)] }

def refused (message : EventMessage) (error : Nat) (extension : Extension) : Extension :=
  { extension with
    handlesRequested := extension.handlesRequested + 1
    outcomes := extension.outcomes ++ [(message, .handleError error)] }

def unheard (message : EventMessage) (extension : Extension) : Extension :=
  { extension with outcomes := extension.outcomes ++ [(message, .discarded)] }

def printing (toPrint : CString) (extension : Extension) : Extension :=
  { extension with printed := extension.printed ++ [SocketEvents.printed toPrint] }

def printingError (toPrint : CString) (extension : Extension) : Extension :=
  extension.printing (text "ERROR: " ++ toPrint)

section
variable {extension : Extension} {args : ArgsRef} {objects : Heap EventArgs}

theorem owners_opened (extension : Extension) (args : ArgsRef) (message : EventMessage)
    (forward : ForwardRef) (handle : Handle) :
    ((extension.opened message forward handle args).owners none).Perm
      (extension.owners (some args)) := by
  simp only [owners, opened, Option.toList_none, Option.toList_some, List.append_nil,
    List.map_append, List.map_cons, List.map_nil, List.append_assoc]
  exact List.Perm.append_left _ List.perm_append_comm

theorem Sound.opened (sound : extension.Sound (some args)) (message : EventMessage)
    (forward : ForwardRef) {handle : Handle}
    (fresh : AssocMap.find handle extension.handles = none) :
    (extension.opened message forward handle args).Sound none := by
  have owners := owners_opened extension args message forward handle
  refine ⟨⟨sound.forwards.bound, sound.forwards.injective⟩, sound.complete,
    owners.nodup_iff.mpr sound.distinct, ?_, ?_, sound.regular⟩
  · intro other
    rw [owners.mem_iff]
    exact sound.owned other
  · simp only [Extension.opened, List.map_append, List.map_cons, List.map_nil]
    refine List.nodup_append.mpr ⟨sound.handlesDistinct, by simp, ?_⟩
    intro older member newest last same
    rw [List.mem_singleton] at last
    exact AssocMap.find_eq_none_iff.mp fresh (last ▸ same ▸ member)

theorem Sound.live_inHand (sound : extension.Sound (some args)) :
    extension.store.objects.Live args := by
  rw [sound.owned]
  exact List.mem_append_left _ (List.mem_append_right _ (by simp))

theorem Sound.dropped (sound : extension.Sound (some args))
    (freed : extension.store.objects.free args = some objects) :
    (extension.destroyed objects).Sound none := by
  obtain ⟨_, _, _, loads⟩ := Heap.free_spec freed
  have split : (extension.owners (some args)).Perm (args :: extension.owners none) := by
    simp only [owners, Option.toList_none, Option.toList_some, List.append_nil,
      List.append_assoc]
    exact List.perm_middle
  have distinct := List.nodup_cons.mp (split.nodup_iff.mp sound.distinct)
  refine ⟨⟨sound.forwards.bound, sound.forwards.injective⟩, sound.complete, distinct.2, ?_,
    sound.handlesDistinct, ?_⟩
  · intro other
    refine (Heap.live_free freed).trans ?_
    rw [sound.owned, split.mem_iff, List.mem_cons]
    constructor
    · rintro ⟨same | owner, different⟩
      · exact (different same).elim
      · exact owner
    · intro owner
      exact ⟨.inr owner, fun same => distinct.1 (same ▸ owner)⟩
  · intro other tree found
    have loaded := loads other
    rw [show objects.load other = some tree from found] at loaded
    split at loaded
    · simp at loaded
    · exact sound.regular other tree loaded.symm

end

end Extension

theorem SourceMod.nextHandle_fresh (sourceMod : SourceMod) (extension : Extension) :
    AssocMap.find (sourceMod.nextHandle extension) extension.handles = none :=
  AssocMap.find_eq_none_iff.mpr (sourceMod.fresh _ _)

inductive Dispatched (sourceMod : SourceMod) (message : EventMessage) (args : ArgsRef)
    (before : Extension) : Extension → Prop
  | executed (forward : ForwardRef) (served : Extension) :
      AssocMap.find message.name before.eventForwards = some forward →
      sourceMod.nextError before = 0 →
      Serves (sourceMod.nextHandle before)
        ((before.opened message forward (sourceMod.nextHandle before) args).calling
          (sourceMod.nextHandle before)
          (sourceMod.callOrder (before.forwardOf message.name).functions)) served →
      ((before.forwardOf message.name).functions = [] →
        served = before.opened message forward (sourceMod.nextHandle before) args) →
      (∀ listener ∈ (before.forwardOf message.name).functions,
        .deleteHandle ∈ sourceMod.callback listener →
          AssocMap.find (sourceMod.nextHandle before) served.handles = none) →
      Dispatched sourceMod message args before
        (if sourceMod.executeResult (before.handlesRequested + 1) = plHandled then
          served.printing (sentText message.name) else served)
  | handleError (forward : ForwardRef) (objects : Heap EventArgs) :
      AssocMap.find message.name before.eventForwards = some forward →
      sourceMod.nextError before ≠ 0 →
      before.store.objects.free args = some objects →
      Dispatched sourceMod message args before
        (((before.refused message (sourceMod.nextError before)).printingError
          (handleErrorText (sourceMod.nextError before))).destroyed objects)
  | discarded (objects : Heap EventArgs) :
      AssocMap.find message.name before.eventForwards = none →
      before.store.objects.free args = some objects →
      Dispatched sourceMod message args before
        (((before.unheard message).printingError (noSubscribersText message.name)).destroyed
          objects)

section
variable {platform : Platform} {sourceMod : SourceMod} {message : EventMessage}
  {args : ArgsRef} {extension : Extension}

theorem forwardOf_of_find {name : CString} {forward : ForwardRef} (valid : extension.ForwardsValid)
    (found : AssocMap.find name extension.eventForwards = some forward) :
    extension.forwards[forward]? = some (extension.forwardOf name) := by
  have bound := valid.bound found
  simp [Extension.forwardOf, found, List.getElem?_eq_getElem bound]

theorem run_createHandle (args : ArgsRef) (created : sourceMod.nextError extension = 0) :
    (createHandle sourceMod args).run extension =
      .ok (sourceMod.nextHandle extension, 0)
        { extension with
          handlesRequested := extension.handlesRequested + 1
          handles := extension.handles ++ [(sourceMod.nextHandle extension, args)] } := by
  simp [createHandle, created]

theorem run_createHandle_refused (args : ArgsRef) (failed : sourceMod.nextError extension ≠ 0) :
    (createHandle sourceMod args).run extension =
      .ok (badHandle, sourceMod.nextError extension)
        { extension with handlesRequested := extension.handlesRequested + 1 } := by
  simp [createHandle, failed]

theorem run_dispatch_discarded {objects : Heap EventArgs} (platform : Platform)
    (sourceMod : SourceMod)
    (found : AssocMap.find message.name extension.eventForwards = none)
    (freed : extension.store.objects.free args = some objects) :
    (dispatchMessage platform sourceMod message args).run extension =
      .ok () (((extension.unheard message).printingError
        (noSubscribersText message.name)).destroyed objects) := by
  simp only [dispatchMessage, EStateM.run_bind, EStateM.run_get, found]
  exact run_deleteArgs freed

theorem run_dispatch_handleError {forward : ForwardRef} {objects : Heap EventArgs}
    (platform : Platform)
    (found : AssocMap.find message.name extension.eventForwards = some forward)
    (failed : sourceMod.nextError extension ≠ 0)
    (freed : extension.store.objects.free args = some objects) :
    (dispatchMessage platform sourceMod message args).run extension =
      .ok () (((extension.refused message (sourceMod.nextError extension)).printingError
        (handleErrorText (sourceMod.nextError extension))).destroyed objects) := by
  simp only [dispatchMessage, EStateM.run_bind, EStateM.run_get, found,
    run_createHandle_refused args failed, failed, if_false]
  exact run_deleteArgs freed

theorem run_dispatch_executed {forward : ForwardRef} {target : Forward} (platform : Platform)
    (args : ArgsRef)
    (found : AssocMap.find message.name extension.eventForwards = some forward)
    (created : sourceMod.nextError extension = 0)
    (held : extension.forwards[forward]? = some target) :
    (dispatchMessage platform sourceMod message args).run extension =
      match ((sourceMod.callOrder target.functions).forM
        (runCallback platform sourceMod (sourceMod.nextHandle extension))).run
          (extension.opened message forward (sourceMod.nextHandle extension) args) with
      | .ok _ after => .ok ()
          (if sourceMod.executeResult (extension.handlesRequested + 1) = plHandled then
            after.printing (sentText message.name) else after)
      | .error fault after => .error fault after := by
  have executed :
      (execute platform sourceMod message forward (sourceMod.nextHandle extension)).run
        { extension with
          handlesRequested := extension.handlesRequested + 1
          handles := extension.handles ++ [(sourceMod.nextHandle extension, args)] } =
      match ((sourceMod.callOrder target.functions).forM
        (runCallback platform sourceMod (sourceMod.nextHandle extension))).run
          (extension.opened message forward (sourceMod.nextHandle extension) args) with
      | .ok _ after => .ok (sourceMod.executeResult (extension.handlesRequested + 1)) after
      | .error fault after => .error fault after := by
    have held' : (extension.opened message forward (sourceMod.nextHandle extension)
        args).forwards[forward]? = some target := held
    have recorded : (recordOutcome message (.executed forward)).run
        { extension with
          handlesRequested := extension.handlesRequested + 1
          handles := extension.handles ++ [(sourceMod.nextHandle extension, args)] } =
        .ok () (extension.opened message forward (sourceMod.nextHandle extension) args) := rfl
    simp only [execute, EStateM.run_bind, recorded, EStateM.run_get, held']
    cases ((sourceMod.callOrder target.functions).forM
      (runCallback platform sourceMod (sourceMod.nextHandle extension))).run
        (extension.opened message forward (sourceMod.nextHandle extension) args) <;> rfl
  simp only [dispatchMessage, EStateM.run_bind, EStateM.run_get, found,
    run_createHandle args created, if_true, executed]
  cases ((sourceMod.callOrder target.functions).forM
    (runCallback platform sourceMod (sourceMod.nextHandle extension))).run
      (extension.opened message forward (sourceMod.nextHandle extension) args) with
  | ok _ after =>
      by_cases handled :
          sourceMod.executeResult (extension.handlesRequested + 1) = plHandled
      · simp only [handled, if_true]
        rfl
      · simp only [handled, if_false]
        rfl
  | error fault after => rfl

theorem run_dispatchMessage (platform : Platform) (sourceMod : SourceMod)
    (message : EventMessage) (sound : extension.Sound (some args)) :
    (∃ after, (dispatchMessage platform sourceMod message args).run extension = .ok () after ∧
      after.Sound none ∧ Dispatched sourceMod message args extension after) ∨
    ((∃ listener ∈ (extension.forwardOf message.name).functions,
        Walks (sourceMod.callback listener)) ∧
      ∃ defect after, (dispatchMessage platform sourceMod message args).run extension =
        .error (.undefined defect) after) := by
  obtain ⟨objects, freed⟩ := Heap.free_isSome sound.live_inHand
  cases found : AssocMap.find message.name extension.eventForwards with
  | none =>
      refine .inl ⟨_, run_dispatch_discarded platform sourceMod found freed, ?_,
        .discarded objects found freed⟩
      exact (sound.dropped freed).congr rfl rfl rfl rfl
  | some forward =>
      by_cases created : sourceMod.nextError extension = 0
      · have called := sourceMod.callsEach (extension.forwardOf message.name).functions
        have executed := run_dispatch_executed platform args found created
          (forwardOf_of_find sound.forwards found)
        rcases run_functions platform sourceMod (sourceMod.nextHandle extension)
          (sourceMod.callOrder (extension.forwardOf message.name).functions)
          (sound.opened message forward (sourceMod.nextHandle_fresh extension)) with
          ⟨served, ran, soundServed, serves, untouched, deletes⟩ |
          ⟨⟨listener, member, walks⟩, defect, after, ran⟩
        · rw [ran] at executed
          refine .inl ⟨_, executed, ?_, .executed forward served found created serves ?_ ?_⟩
          · split
            · exact soundServed.congr rfl rfl rfl rfl
            · exact soundServed
          · intro none
            exact untouched (List.perm_nil.mp (none ▸ called))
          · exact fun listener member => deletes listener (called.mem_iff.mpr member)
        · rw [ran] at executed
          exact .inr ⟨⟨listener, called.mem_iff.mp member, walks⟩, defect, after, executed⟩
      · refine .inl ⟨_, run_dispatch_handleError platform found created freed, ?_,
          .handleError forward objects found created freed⟩
        exact (sound.dropped freed).congr rfl rfl rfl rfl

namespace Dispatched

variable {before after : Extension}

theorem config (dispatched : Dispatched sourceMod message args before after) :
    after.config = before.config := by
  cases dispatched with
  | executed forward served found error serves untouched deletes => split <;> exact serves.config
  | handleError forward objects found error freed => rfl
  | discarded objects found freed => rfl

theorem eventQueue (dispatched : Dispatched sourceMod message args before after) :
    after.store.eventQueue = before.store.eventQueue := by
  cases dispatched with
  | executed forward served found error serves untouched deletes =>
      split <;> exact serves.eventQueue
  | handleError forward objects found error freed => rfl
  | discarded objects found freed => rfl

theorem bindings (dispatched : Dispatched sourceMod message args before after) {name : CString}
    {forward : ForwardRef} (found : AssocMap.find name before.eventForwards = some forward) :
    AssocMap.find name after.eventForwards = some forward := by
  cases dispatched with
  | executed _ served _ error serves untouched deletes => split <;> exact serves.bindings found
  | handleError _ objects _ error freed => exact found
  | discarded objects _ freed => exact found

theorem outcomes (dispatched : Dispatched sourceMod message args before after) :
    ∃ outcome, after.outcomes = before.outcomes ++ [(message, outcome)] := by
  cases dispatched with
  | executed forward served found error serves untouched deletes =>
      refine ⟨.executed forward, ?_⟩
      split <;> exact serves.outcomes
  | handleError forward objects found error freed => exact ⟨.handleError _, rfl⟩
  | discarded objects found freed => exact ⟨.discarded, rfl⟩

theorem calls (dispatched : Dispatched sourceMod message args before after)
    (created : sourceMod.nextError before = 0) :
    after.calls = before.calls ++
      (sourceMod.callOrder (before.forwardOf message.name).functions).map
        (sourceMod.nextHandle before, ·) := by
  cases dispatched with
  | executed forward served found error serves untouched deletes =>
      split <;> exact serves.calls
  | handleError forward objects found error freed => exact (error created).elim
  | discarded objects found freed =>
      have empty : sourceMod.callOrder [] = [] := List.perm_nil.mp (sourceMod.callsEach [])
      simp [Extension.destroyed, Extension.printingError, Extension.printing, Extension.unheard,
        Extension.forwardOf, found, Forward.created, empty]

theorem find_opened {handle : Handle} (fresh : AssocMap.find handle before.handles = none)
    (message : EventMessage) (forward : ForwardRef) (args : ArgsRef) :
    AssocMap.find handle (before.opened message forward handle args).handles = some args := by
  simp [Extension.opened, AssocMap.find_append, fresh, AssocMap.find]

theorem others (dispatched : Dispatched sourceMod message args before after) {handle : Handle}
    {owned : ArgsRef} (valid : AssocMap.find handle before.handles = some owned) :
    AssocMap.find handle after.handles = some owned := by
  cases dispatched with
  | executed forward served found error serves untouched deletes =>
      have older : handle ≠ sourceMod.nextHandle before := by
        rintro rfl
        simp [sourceMod.nextHandle_fresh before] at valid
      have kept := serves.others handle older
      have opened : AssocMap.find handle
          (before.opened message forward (sourceMod.nextHandle before) args).handles =
            some owned := by
        simp [Extension.opened, AssocMap.find_append, valid]
      have same : AssocMap.find handle served.handles = some owned := kept.trans opened
      split <;> exact same
  | handleError forward objects found error freed => exact valid
  | discarded objects found freed => exact valid

theorem freed (dispatched : Dispatched sourceMod message args before after)
    (deletes : ∀ listener, .deleteHandle ∈ sourceMod.callback listener)
    (kept : ¬ ((AssocMap.find message.name before.eventForwards).isSome = true ∧
      (before.forwardOf message.name).functions = [] ∧ sourceMod.nextError before = 0)) :
    after.store.objects.freed = before.store.objects.freed ++ [args] := by
  cases dispatched with
  | executed forward served found error serves untouched deleted =>
      have opened := find_opened (sourceMod.nextHandle_fresh before) message forward args
      have invalid : AssocMap.find (sourceMod.nextHandle before) served.handles = none := by
        cases functions : (before.forwardOf message.name).functions with
        | nil => exact (kept ⟨by simp [found], functions, error⟩).elim
        | cons listener rest => exact deleted listener (by simp [functions]) (deletes listener)
      have status : served.store.objects.freed = before.store.objects.freed ++ [args] := by
        rcases serves.status with ⟨same, _⟩ | ⟨owned, valid, _, added⟩
        · have valid := same.trans opened
          simp [invalid] at valid
        · rw [show owned = args from Option.some.inj (valid.symm.trans opened)] at added
          exact added
      split <;> exact status
  | handleError forward objects found error result =>
      obtain ⟨_, added, _, _⟩ := Heap.free_spec result
      exact added
  | discarded objects found result =>
      obtain ⟨_, added, _, _⟩ := Heap.free_spec result
      exact added

theorem abandoned (dispatched : Dispatched sourceMod message args before after)
    (bound : (AssocMap.find message.name before.eventForwards).isSome = true)
    (functions : (before.forwardOf message.name).functions = [])
    (created : sourceMod.nextError before = 0) :
    AssocMap.find (sourceMod.nextHandle before) after.handles = some args := by
  cases dispatched with
  | executed forward served found error serves untouched deleted =>
      have opened := find_opened (sourceMod.nextHandle_fresh before) message forward args
      have same := untouched functions
      subst same
      split <;> exact opened
  | handleError forward objects found error result => exact (error created).elim
  | discarded objects found result => simp [found] at bound

end Dispatched

end

end SocketEvents
