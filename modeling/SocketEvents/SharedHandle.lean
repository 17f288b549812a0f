import SocketEvents.EventLoop

/-!
One handle for all listeners of an event: what each of them reads when every one deletes the
handle it is given.
-/

namespace SocketEvents

open Execution Transition

structure PluginRead where
  native : EventArgsNative
  key : CString
  deriving DecidableEq, Repr

def PluginRead.call (read : PluginRead) : PluginCall := .read read.native (some read.key)

/-- A plugin function as the readme has it: it reads arguments and deletes the handle. -/
def readsThenDeletes (reads : List PluginRead) : List PluginCall :=
  reads.map PluginRead.call ++ [.deleteHandle]

def PluginRead.alone (platform : Platform) (tree : EventArgs) (read : PluginRead) :
    Option (Cell × CString) :=
  read.native.answer platform tree read.key

def PluginRead.record (listener : Listener) (handle : Handle) (result : Option (Cell × CString))
    (read : PluginRead) : ReadRecord :=
  ⟨listener, handle, read.native, some read.key, result⟩

section
variable {platform : Platform} {sourceMod : SourceMod} {extension : Extension}
  {handle : Handle} {args : ArgsRef} {tree : EventArgs} {listener : Listener}

def recordsOf (platform : Platform) (tree : EventArgs) (handle : Handle) (listener : Listener)
    (reads : List PluginRead) : List ReadRecord :=
  reads.map fun read => read.record listener handle (read.alone platform tree)

def failuresOf (handle : Handle) (listener : Listener) (reads : List PluginRead) :
    List ReadRecord :=
  reads.head?.toList.map (PluginRead.record listener handle none)

def Extension.recording (records : List ReadRecord) (extension : Extension) : Extension :=
  { extension with reads := extension.reads ++ records }

theorem PluginRead.alone_of_run {read : PluginRead} {result : Cell × CString}
    (returned : (read.native.run platform read.key).run tree = .ok result tree) :
    read.alone platform tree = some result := by
  simp [PluginRead.alone, EventArgsNative.answer, returned]

theorem PluginRead.alone_isSome {read : PluginRead} (platform : Platform) (regular : tree.Regular)
    (answers : read.native.Answers tree read.key) :
    (read.alone platform tree).isSome = true := by
  rcases read.native.readsIf platform regular read.key with ⟨_, result, returned⟩ | ⟨crashes, _⟩
  · rw [alone_of_run returned]
    rfl
  · exact (crashes answers).elim

theorem run_reads (platform : Platform) (listener : Listener) (regular : tree.Regular)
    (valid : AssocMap.find handle extension.handles = some args)
    (stored : extension.store.objects.load args = some tree) {reads : List PluginRead}
    (answers : ∀ read ∈ reads, read.native.Answers tree read.key) :
    ((reads.map PluginRead.call).forM (runCall platform listener handle)).run extension =
      .ok () (extension.recording (recordsOf platform tree handle listener reads)) := by
  induction reads generalizing extension with
  | nil => simp [recordsOf, Extension.recording]
  | cons read rest ih =>
      rcases read.native.readsIf platform regular read.key with
        ⟨_, result, returned⟩ | ⟨crashes, _⟩
      · have ran : (runCall platform listener handle read.call).run extension =
            .ok () (extension.afterRead (read.record listener handle (some result))) :=
          run_readNative valid stored returned
        have validNext : AssocMap.find handle (extension.afterRead
            (read.record listener handle (some result))).handles = some args := valid
        have later := ih validNext stored fun other member =>
          answers other (List.mem_cons_of_mem _ member)
        simp only [List.map_cons, List.forM, EStateM.run_bind, ran, later]
        simp [recordsOf, Extension.recording, Extension.afterRead,
          PluginRead.alone_of_run returned]
      · exact (crashes (answers read (by simp))).elim

theorem run_reads_crash (platform : Platform) (listener : Listener) (regular : tree.Regular)
    (valid : AssocMap.find handle extension.handles = some args)
    (stored : extension.store.objects.load args = some tree) {reads : List PluginRead}
    (crashes : ∃ read ∈ reads, ¬ read.native.Answers tree read.key) :
    ∃ defect after, ((reads.map PluginRead.call).forM (runCall platform listener handle)).run
      extension = .error (.undefined defect) after := by
  induction reads generalizing extension with
  | nil => simp at crashes
  | cons read rest ih =>
      simp only [List.map_cons, List.forM, EStateM.run_bind]
      rcases read.native.readsIf platform regular read.key with
        ⟨answered, result, returned⟩ | ⟨_, defect, crashed⟩
      · have ran : (runCall platform listener handle read.call).run extension =
            .ok () (extension.afterRead (read.record listener handle (some result))) :=
          run_readNative valid stored returned
        have later : ∃ other ∈ rest, ¬ other.native.Answers tree other.key := by
          obtain ⟨other, member, fails⟩ := crashes
          rcases List.mem_cons.mp member with same | inside
          · exact (fails (same ▸ answered)).elim
          · exact ⟨other, inside, fails⟩
        rw [ran]
        exact ih valid stored later
      · have ran : (runCall platform listener handle read.call).run extension =
            .error (.undefined defect) extension := run_readNative_crash valid stored crashed
        exact ⟨defect, extension, by rw [ran]⟩

section
variable {reads : Listener → List PluginRead} {objects : Heap EventArgs}

theorem run_readsThenDeletes (platform : Platform) (listener : Listener) (handle : Handle)
    (reads : List PluginRead) (extension : Extension) :
    ((readsThenDeletes reads).forM (runCall platform listener handle)).run extension =
      match ((reads.map PluginRead.call).forM (runCall platform listener handle)).run
        extension with
      | .ok _ next => (deleteHandle handle).run next
      | .error fault after => .error fault after := by
  rw [readsThenDeletes, run_forM_append_singleton]
  cases ((reads.map PluginRead.call).forM (runCall platform listener handle)).run extension <;> rfl

theorem run_runCallback (platform : Platform) (sourceMod : SourceMod) (handle : Handle)
    (listener : Listener) (extension : Extension) :
    (runCallback platform sourceMod handle listener).run extension =
      (guarded (fun _ => true)
        ((sourceMod.callback listener).forM (runCall platform listener handle))
        (return ())).run (extension.calling handle [listener]) := rfl

theorem run_firstListener (platform : Platform) (regular : tree.Regular)
    (follows : sourceMod.callback listener = readsThenDeletes (reads listener))
    (valid : AssocMap.find handle extension.handles = some args)
    (stored : extension.store.objects.load args = some tree)
    (freed : extension.store.objects.free args = some objects)
    (answers : ∀ read ∈ reads listener, read.native.Answers tree read.key) :
    (runCallback platform sourceMod handle listener).run extension =
      .ok () ((((extension.calling handle [listener]).recording
        (recordsOf platform tree handle listener (reads listener))).closed handle).destroyed
          objects) := by
  have validCalling : AssocMap.find handle (extension.calling handle [listener]).handles =
      some args := valid
  have ran := run_reads platform listener regular validCalling stored answers
  have deleted : (deleteHandle handle).run ((extension.calling handle [listener]).recording
      (recordsOf platform tree handle listener (reads listener))) = .ok () _ :=
    run_deleteHandle valid freed
  rw [run_runCallback, run_guarded, follows, run_readsThenDeletes, ran]
  simp only [deleted]

theorem run_firstListener_crash (platform : Platform) (regular : tree.Regular)
    (follows : sourceMod.callback listener = readsThenDeletes (reads listener))
    (valid : AssocMap.find handle extension.handles = some args)
    (stored : extension.store.objects.load args = some tree)
    (crashes : ∃ read ∈ reads listener, ¬ read.native.Answers tree read.key) :
    ∃ defect after, (runCallback platform sourceMod handle listener).run extension =
      .error (.undefined defect) after := by
  have validCalling : AssocMap.find handle (extension.calling handle [listener]).handles =
      some args := valid
  obtain ⟨defect, after, ran⟩ := run_reads_crash platform listener regular
    validCalling stored crashes
  exact ⟨defect, after, by
    rw [run_runCallback, run_guarded, follows, run_readsThenDeletes, ran]⟩

theorem run_laterListener (platform : Platform)
    (follows : sourceMod.callback listener = readsThenDeletes (reads listener))
    (invalid : AssocMap.find handle extension.handles = none) :
    (runCallback platform sourceMod handle listener).run extension =
      .ok () ((extension.calling handle [listener]).recording
        (failuresOf handle listener (reads listener))) := by
  have invalidCalling : AssocMap.find handle (extension.calling handle [listener]).handles =
      none := invalid
  rw [run_runCallback, run_guarded, follows, run_readsThenDeletes]
  cases reads listener with
  | nil =>
      simp [run_deleteHandle_invalid invalidCalling, failuresOf, Extension.recording]
  | cons read rest =>
      have failed : (runCall platform listener handle read.call).run
          (extension.calling handle [listener]) = .error (.thrown .invalidHandle) _ :=
        run_readNative_invalid platform listener read.native (some read.key) invalidCalling
      simp [failed, failuresOf, Extension.recording, Extension.afterRead, PluginRead.record]

theorem run_laterListeners (platform : Platform) (listeners : List Listener)
    (follows : ∀ listener ∈ listeners,
      sourceMod.callback listener = readsThenDeletes (reads listener))
    (invalid : AssocMap.find handle extension.handles = none) :
    ∃ after, (listeners.forM (runCallback platform sourceMod handle)).run extension =
        .ok () after ∧
      after.reads = extension.reads ++
        listeners.flatMap fun listener => failuresOf handle listener (reads listener) := by
  induction listeners generalizing extension with
  | nil => exact ⟨extension, rfl, by simp⟩
  | cons listener rest ih =>
      have ran := run_laterListener platform (follows listener (by simp)) invalid
      have still : AssocMap.find handle ((extension.calling handle [listener]).recording
          (failuresOf handle listener (reads listener))).handles = none := invalid
      obtain ⟨after, later, records⟩ := ih
        (fun other member => follows other (List.mem_cons_of_mem _ member)) still
      refine ⟨after, ?_, ?_⟩
      · simp only [List.forM, EStateM.run_bind, ran, later]
      · simp [records, Extension.recording, Extension.calling]

end

end

def EveryListenerReads (platform : Platform) (sourceMod : SourceMod)
    (reads : Listener → List PluginRead) (message : EventMessage) (args : ArgsRef)
    (tree : EventArgs) (extension : Extension) : Prop :=
  ∃ after, (dispatchMessage platform sourceMod message args).run extension = .ok () after ∧
    after.reads = extension.reads ++
      (sourceMod.callOrder (extension.forwardOf message.name).functions).flatMap
        (fun listener =>
          recordsOf platform tree (sourceMod.nextHandle extension) listener (reads listener)) ∧
    ∀ listener ∈ (extension.forwardOf message.name).functions, ∀ read ∈ reads listener,
      (read.alone platform tree).isSome = true

def OnlyFirstReads (reads : Listener → List PluginRead) (tree : EventArgs) :
    List Listener → Prop
  | [] => True
  | first :: rest => (∀ read ∈ reads first, read.native.Answers tree read.key) ∧
      ∀ listener ∈ rest, reads listener = []

section
variable {platform : Platform} {sourceMod : SourceMod} {extension : Extension}
  {message : EventMessage} {args : ArgsRef} {tree : EventArgs}
  {reads : Listener → List PluginRead} {first : Listener} {rest : List Listener}

theorem find_of_called {name : CString}
    (called : sourceMod.callOrder (extension.forwardOf name).functions = first :: rest) :
    ∃ forward, AssocMap.find name extension.eventForwards = some forward := by
  cases found : AssocMap.find name extension.eventForwards with
  | some forward => exact ⟨forward, rfl⟩
  | none =>
      have each := sourceMod.callsEach (extension.forwardOf name).functions
      rw [called] at each
      simp [Extension.forwardOf, found, Forward.created] at each

theorem run_dispatch_reads (platform : Platform) (sound : extension.Sound (some args))
    (called : sourceMod.callOrder (extension.forwardOf message.name).functions = first :: rest)
    (created : sourceMod.nextError extension = 0)
    (follows : ∀ listener ∈ first :: rest,
      sourceMod.callback listener = readsThenDeletes (reads listener))
    (stored : extension.store.objects.load args = some tree)
    (answers : ∀ read ∈ reads first, read.native.Answers tree read.key) :
    ∃ after, (dispatchMessage platform sourceMod message args).run extension = .ok () after ∧
      after.reads = extension.reads ++
        (recordsOf platform tree (sourceMod.nextHandle extension) first (reads first) ++
          rest.flatMap fun listener =>
            failuresOf (sourceMod.nextHandle extension) listener (reads listener)) := by
  obtain ⟨forward, found⟩ := find_of_called called
  have executed := run_dispatch_executed platform args found created
    (forwardOf_of_find sound.forwards found)
  obtain ⟨objects, freed⟩ := Heap.free_isSome sound.live_inHand
  generalize sourceMod.nextHandle extension = handle, sourceMod.nextHandle_fresh extension = fresh
    at executed ⊢
  have valid := Dispatched.find_opened fresh message forward args
  have storedOpened : (extension.opened message forward handle args).store.objects.load args =
      some tree := stored
  have freedOpened : (extension.opened message forward handle args).store.objects.free args =
      some objects := freed
  -- the first function finds the handle valid and deletes it, so all others find it invalid
  have ran := run_firstListener platform (sound.regular args tree stored)
    (follows first (by simp)) valid storedOpened freedOpened answers
  have invalid : AssocMap.find handle
      (((((extension.opened message forward handle args).calling handle [first]).recording
        (recordsOf platform tree handle first (reads first))).closed handle).destroyed
          objects).handles = none := by
    simp [Extension.destroyed, Extension.closed, AssocMap.find_erase]
  obtain ⟨after, later, records⟩ := run_laterListeners platform rest
    (fun listener member => follows listener (List.mem_cons_of_mem first member)) invalid
  rw [called] at executed
  simp only [List.forM, EStateM.run_bind, ran, later] at executed
  refine ⟨_, executed, ?_⟩
  have joined : after.reads = extension.reads ++
      (recordsOf platform tree handle first (reads first) ++
        rest.flatMap fun listener => failuresOf handle listener (reads listener)) := by
    rw [records, ← List.append_assoc]
    rfl
  split <;> exact joined

theorem run_dispatch_crash (platform : Platform) (sound : extension.Sound (some args))
    (called : sourceMod.callOrder (extension.forwardOf message.name).functions = first :: rest)
    (created : sourceMod.nextError extension = 0)
    (follows : sourceMod.callback first = readsThenDeletes (reads first))
    (stored : extension.store.objects.load args = some tree)
    (crashes : ∃ read ∈ reads first, ¬ read.native.Answers tree read.key) :
    ∃ defect after, (dispatchMessage platform sourceMod message args).run extension =
      .error (.undefined defect) after := by
  obtain ⟨forward, found⟩ := find_of_called called
  have executed := run_dispatch_executed platform args found created
    (forwardOf_of_find sound.forwards found)
  have valid := Dispatched.find_opened (sourceMod.nextHandle_fresh extension) message forward args
  have storedOpened : (extension.opened message forward (sourceMod.nextHandle extension)
      args).store.objects.load args = some tree := stored
  obtain ⟨defect, after, ran⟩ := run_firstListener_crash platform
    (sound.regular args tree stored) follows valid storedOpened crashes
  rw [called] at executed
  simp only [List.forM, EStateM.run_bind, ran] at executed
  exact ⟨defect, after, executed⟩

theorem failures_eq_records_iff (handle : Handle)
    (succeed : ∀ listener ∈ rest, ∀ read ∈ reads listener,
      (read.alone platform tree).isSome = true) :
    (rest.flatMap fun listener => failuresOf handle listener (reads listener)) =
        (rest.flatMap fun listener => recordsOf platform tree handle listener (reads listener)) ↔
      ∀ listener ∈ rest, reads listener = [] := by
  constructor
  · intro same listener member
    cases readsOf : reads listener with
    | nil => rfl
    | cons read others =>
        have failure : read.record listener handle none ∈
            rest.flatMap fun listener => failuresOf handle listener (reads listener) :=
          List.mem_flatMap.mpr ⟨listener, member, by simp [failuresOf, readsOf]⟩
        rw [same] at failure
        obtain ⟨other, otherMember, recorded⟩ := List.mem_flatMap.mp failure
        obtain ⟨success, successMember, equal⟩ := List.mem_map.mp recorded
        have some := succeed other otherMember success successMember
        simp only [PluginRead.record, ReadRecord.mk.injEq] at equal
        simp [equal.2.2.2.2] at some
  · intro silent
    have none : ∀ {records : Listener → List ReadRecord},
        (∀ listener ∈ rest, records listener = []) → rest.flatMap records = [] :=
      fun empty => List.flatMap_eq_nil_iff.mpr empty
    rw [none fun listener member => by simp [failuresOf, silent listener member],
      none fun listener member => by simp [recordsOf, silent listener member]]

theorem everyListenerReads_of_sound (platform : Platform) (sound : extension.Sound (some args))
    (called : sourceMod.callOrder (extension.forwardOf message.name).functions = first :: rest)
    (created : sourceMod.nextError extension = 0)
    (follows : ∀ listener ∈ first :: rest,
      sourceMod.callback listener = readsThenDeletes (reads listener))
    (stored : extension.store.objects.load args = some tree) :
    EveryListenerReads platform sourceMod reads message args tree extension ↔
      OnlyFirstReads reads tree (first :: rest) := by
  have each : ∀ listener, listener ∈ first :: rest ↔
      listener ∈ (extension.forwardOf message.name).functions :=
    fun listener => called ▸ (sourceMod.callsEach _).mem_iff
  by_cases answers : ∀ read ∈ reads first, read.native.Answers tree read.key
  · obtain ⟨after, ran, records⟩ := run_dispatch_reads platform sound called created follows
      stored answers
    constructor
    · rintro ⟨other, ran', recorded, succeed⟩
      rw [ran, EStateM.Result.ok.injEq] at ran'
      obtain ⟨_, rfl⟩ := ran'
      rw [called] at recorded
      rw [records, List.flatMap_cons, List.append_cancel_left_eq,
        List.append_cancel_left_eq] at recorded
      exact ⟨answers, (failures_eq_records_iff _ fun listener member =>
        succeed listener ((each listener).mp (List.mem_cons_of_mem first member))).mp recorded⟩
    · rintro ⟨_, silent⟩
      have succeed : ∀ listener ∈ first :: rest, ∀ read ∈ reads listener,
          (read.alone platform tree).isSome = true := by
        intro listener member read inside
        rcases List.mem_cons.mp member with same | later
        · exact PluginRead.alone_isSome platform (sound.regular args tree stored)
            (answers read (same ▸ inside))
        · simp [silent listener later] at inside
      refine ⟨after, ran, ?_, fun listener member =>
        succeed listener ((each listener).mpr member)⟩
      rw [records, called, List.flatMap_cons, List.append_cancel_left_eq,
        List.append_cancel_left_eq]
      exact (failures_eq_records_iff _ fun listener member =>
        succeed listener (List.mem_cons_of_mem first member)).mpr silent
  -- a crash in the first function leaves no state in which anybody has read
  · have crashes : ∃ read ∈ reads first, ¬ read.native.Answers tree read.key := by
      simpa using answers
    obtain ⟨defect, after, crashed⟩ := run_dispatch_crash platform sound called created
      (follows first (by simp)) stored crashes
    constructor
    · rintro ⟨other, ran, _⟩
      rw [crashed] at ran
      simp at ran
    · rintro ⟨holds, _⟩
      exact (answers holds).elim

theorem everyListenerReads_iff {config : Config} {path : List System} {system : System}
    {dequeuedBefore iteration : Nat}
    (run : Run (Step platform sourceMod) (System.start config) path system)
    (dispatching : system.phase = .dispatching dequeuedBefore iteration message)
    (held : message.args = some args)
    (stored : system.extension.store.objects.load args = some tree)
    (listening : (system.extension.forwardOf message.name).functions ≠ [])
    (created : sourceMod.nextError system.extension = 0)
    (follows : ∀ listener ∈ (system.extension.forwardOf message.name).functions,
      sourceMod.callback listener = readsThenDeletes (reads listener)) :
    EveryListenerReads platform sourceMod reads message args tree system.extension ↔
      OnlyFirstReads reads tree
        (sourceMod.callOrder (system.extension.forwardOf message.name).functions) := by
  have each := sourceMod.callsEach (system.extension.forwardOf message.name).functions
  have sound := (consistent_of_run run).sound
  rw [dispatching] at sound
  simp only [Phase.inHand, held] at sound
  cases called : sourceMod.callOrder (system.extension.forwardOf message.name).functions with
  | nil =>
      rw [called] at each
      exact (listening (List.nil_perm.mp each)).elim
  | cons first rest =>
      refine everyListenerReads_of_sound platform sound called created ?_ stored
      exact fun listener member => follows listener (each.mem_iff.mp (called ▸ member))

end

def readingPlugins : SourceMod :=
  .simple fun _ => readsThenDeletes [{ native := .getInt, key := text "x" }]

def payloadSample : Json :=
  .object [(text "args", .object [(text "x", .numberUnsigned 5)]),
    (text "event", .string (text "a"))]

def payloadState (functions : List FunctionId) : Extension :=
  let arrived := (Extension.afterNatives
    (functions.map fun function => (0, .addEventListener (text "a") function))
      { config := {} }).arrive .x64 (some {}) payloadSample
  arrived.dequeued arrived.store.eventQueue.tryDequeue.2

theorem payloadState_run (functions : List FunctionId)
    (queued : ((Extension.afterNatives
      (functions.map fun function => (0, .addEventListener (text "a") function))
        { config := {} }).arrive .x64 (some {}) payloadSample).store.eventQueue.tryDequeue.1 =
          some { name := text "a", args := some 0 }) :
    ∃ path dequeuedBefore, Run (Step .x64 readingPlugins) (System.start {}) path
      { extension := payloadState functions
        phase := .dispatching dequeuedBefore 0 { name := text "a", args := some 0 } } :=
  run_to_dispatch .x64 readingPlugins _ (some {}) (by decide) (Prod.ext queued rfl) (by decide)

theorem secondListener_fails : ¬ ∀ platform sourceMod config path (system : System)
    dequeuedBefore iteration message args tree reads,
    Run (Step platform sourceMod) (System.start config) path system →
    system.phase = .dispatching dequeuedBefore iteration message →
    message.args = some args → system.extension.store.objects.load args = some tree →
    (system.extension.forwardOf message.name).functions ≠ [] →
    sourceMod.nextError system.extension = 0 →
    (∀ listener ∈ (system.extension.forwardOf message.name).functions,
      sourceMod.callback listener = readsThenDeletes (reads listener)) →
    EveryListenerReads platform sourceMod reads message args tree system.extension := by
  intro everyone
  obtain ⟨path, dequeuedBefore, run⟩ := payloadState_run [0, 1] rfl
  have actual : ∃ after, (dispatchMessage .x64 readingPlugins
      { name := text "a", args := some 0 } 0).run (payloadState [0, 1]) = .ok () after ∧
        after.reads.map ReadRecord.result = [some (5, []), none] := ⟨_, rfl, rfl⟩
  obtain ⟨after, ran, results⟩ := actual
  obtain ⟨other, ran', recorded, _⟩ := everyone .x64 readingPlugins {} path _ dequeuedBefore 0 _ 0 _
    (fun _ => [{ native := .getInt, key := text "x" }]) run rfl rfl rfl (List.cons_ne_nil _ _) rfl
    (fun _ _ => rfl)
  have same : after = other := (EStateM.Result.ok.inj (ran.symm.trans ran')).2
  have mapped := congrArg (List.map ReadRecord.result) recorded
  rw [← same, results] at mapped
  have expected : [some ((5 : Cell), ([] : CString)), none] = [some (5, []), some (5, [])] :=
    mapped
  simp at expected

theorem everyListenerReads_iff_single : ∃ tree,
    (payloadState [0]).store.objects.load 0 = some tree ∧
      EveryListenerReads .x64 readingPlugins (fun _ => [{ native := .getInt, key := text "x" }])
        { name := text "a", args := some 0 } 0 tree (payloadState [0]) := by
  obtain ⟨path, dequeuedBefore, run⟩ := payloadState_run [0] rfl
  have only : ∀ tree, OnlyFirstReads (fun _ => [{ native := .getInt, key := text "x" }])
      tree [{ plugin := 0, function := 0 }] := by
    intro tree
    refine ⟨?_, by simp⟩
    intro read member
    rw [List.mem_singleton.mp member]
    exact .inl rfl
  exact ⟨_, rfl, (everyListenerReads_iff run rfl rfl rfl (List.cons_ne_nil _ _) rfl
    (fun _ _ => rfl)).mpr (only _)⟩

end SocketEvents
