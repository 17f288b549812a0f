import SocketEvents.Admission
import SocketEvents.EventLoop
import SocketEvents.PluginFunctions

/-!
Runs of the host: the event loop with messages of a given kind arriving, and with plugins that
keep their handles. Between frames, and in a function that `Execute` calls, a plugin may read from
any handle, delete it, or change its listeners.
-/

namespace SocketEvents

open Execution Transition

section
variable (platform : Platform) (sourceMod : SourceMod) (arriving : Option Config → Json → Prop)

/-- A step of the event loop that is no arrival leaves what was enqueued as it is. -/
inductive HostStep (system : System) : System → Prop
  | arrive (serverConfig : Option Config) (json : Json) : arriving serverConfig json →
      json.WellFormed →
      HostStep system
        { system with extension := system.extension.arrive platform serverConfig json }
  | loop {after : System} : Step platform sourceMod system after →
      after.extension.store.eventQueue.enqueued =
        system.extension.store.eventQueue.enqueued →
      HostStep system after
  | call (listener : Listener) (handle : Handle) (call : PluginCall) {after : Extension} :
      system.phase = .outside →
      Ends ((runCall platform listener handle call).run system.extension) after →
      HostStep system { system with extension := after }
  | execute {dequeuedBefore iteration : Nat} {message : EventMessage} {args : ArgsRef}
      {served : Extension} :
      system.phase = .dispatching dequeuedBefore iteration message →
      message.args = some args →
      Executing platform sourceMod message args system.extension { extension := served } →
      HostStep system { system with
        extension := sourceMod.reported message system.extension served
        phase := .looping dequeuedBefore (iteration + 1) }

end

section
variable {platform : Platform} {sourceMod : SourceMod} {arriving : Option Config → Json → Prop}
  {config : Config} {system after : System}

theorem consistent_call {extension : Extension} {listener : Listener} {handle : Handle}
    (consistent : system.Consistent platform config) (outside : system.phase = .outside)
    (effect : CallEffect listener handle system.extension extension) :
    System.Consistent platform config { system with extension } := by
  obtain ⟨unchanged, sound, fifo, ended, counts, frames⟩ := consistent
  rw [outside] at sound ended
  have serves := effect.serves sound
  refine ⟨serves.config.trans unchanged, ?_, ?_, ?_, ?_, frames⟩
  · rw [outside]
    exact effect.sound sound
  · rw [serves.eventQueue]
    exact fifo
  · rw [outside, serves.eventQueue, serves.outcomes]
    exact ended
  · rw [outside]
    trivial

theorem execute_keeps {dequeuedBefore iteration : Nat} {message : EventMessage} {args : ArgsRef}
    {served : Extension} (consistent : system.Consistent platform config)
    (dispatching : system.phase = .dispatching dequeuedBefore iteration message)
    (holds : message.args = some args)
    (executing : Executing platform sourceMod message args system.extension
      { extension := served }) :
    ∃ forward, Serving.Keeps
      (system.extension.opened message forward (sourceMod.nextHandle system.extension) args)
      { extension := sourceMod.reported message system.extension served } := by
  have sound := consistent.sound
  rw [dispatching] at sound
  simp only [Phase.inHand, holds] at sound
  obtain ⟨forward, keeps⟩ := executing.keeps sound
  exact ⟨forward, keeps.reported sourceMod message system.extension⟩

theorem consistent_execute {dequeuedBefore iteration : Nat} {message : EventMessage}
    {args : ArgsRef} {served : Extension} (consistent : system.Consistent platform config)
    (dispatching : system.phase = .dispatching dequeuedBefore iteration message)
    (holds : message.args = some args)
    (executing : Executing platform sourceMod message args system.extension
      { extension := served }) :
    System.Consistent platform config { system with
      extension := sourceMod.reported message system.extension served
      phase := .looping dequeuedBefore (iteration + 1) } := by
  obtain ⟨forward, keeps⟩ := execute_keeps consistent dispatching holds executing
  obtain ⟨unchanged, _, fifo, ended, counts, frames⟩ := consistent
  rw [dispatching] at ended counts
  obtain ⟨counted, below, _⟩ := counts
  have queue : (sourceMod.reported message system.extension served).store.eventQueue =
      system.extension.store.eventQueue := keeps.eventQueue
  refine ⟨keeps.config.trans unchanged, keeps.sound, ?_, ?_, ⟨?_, below⟩, frames⟩
  · simp only [queue, fifo]
  · have outcomes : (sourceMod.reported message system.extension served).outcomes =
        system.extension.outcomes ++ [(message, .executed forward)] := keeps.outcomes
    simp only [queue, outcomes, ← ended, List.map_append, List.map_cons, List.map_nil,
      Phase.inFlight, List.append_nil]
  · simp only [Extension.dequeuedCount, queue] at counted ⊢
    omega

theorem HostStep.consistent (stepped : HostStep platform sourceMod arriving system after)
    (consistent : system.Consistent platform config) : after.Consistent platform config := by
  cases stepped with
  | arrive serverConfig json _ wellFormed =>
      exact consistent_arrive consistent serverConfig wellFormed
  | loop stepped _ => exact stepped.consistent consistent
  | call listener handle call outside ends =>
      have sound := consistent.sound
      rw [outside] at sound
      exact consistent_call consistent outside (effect_of_ends sound ends)
  | execute dispatching holds executing =>
      exact consistent_execute consistent dispatching holds executing

theorem consistent_of_hostRun {path : List System}
    (run : Run (HostStep platform sourceMod arriving) (System.start config) path system) :
    system.Consistent platform config :=
  run.invariant (consistent_start platform config) fun consistent stepped =>
    stepped.consistent consistent

theorem dispatch_eventQueue {dequeuedBefore iteration : Nat} {message : EventMessage}
    {args : ArgsRef} {extension : Extension} (consistent : system.Consistent platform config)
    (dispatching : system.phase = .dispatching dequeuedBefore iteration message)
    (holds : message.args = some args)
    (ran : (dispatchMessage platform sourceMod message args).run system.extension =
      .ok () extension) :
    extension.store.eventQueue = system.extension.store.eventQueue := by
  have sound := consistent.sound
  rw [dispatching] at sound
  simp only [Phase.inHand, holds] at sound
  rcases run_dispatchMessage platform sourceMod message sound with
    ⟨other, ran', _, dispatched⟩ | ⟨_, defect, other, crashed⟩
  · rw [ran, EStateM.Result.ok.injEq] at ran'
    rw [ran'.2, dispatched.eventQueue]
  · rw [ran] at crashed
    simp at crashed

theorem hostStep_of_step (consistent : system.Consistent platform config)
    (stepped : Step platform sourceMod system after) :
    HostStep platform sourceMod (fun _ _ => True) system after := by
  cases stepped with
  | arrive serverConfig json wellFormed => exact .arrive serverConfig json trivial wellFormed
  | native plugin native outside =>
      refine .loop (.native plugin native outside) ?_
      obtain ⟨_, _, same⟩ := native.run_frame plugin system.extension
      rw [same]
  | enterFrame outside => exact .loop (.enterFrame outside) rfl
  | dequeue looping below result =>
      exact .loop (.dequeue looping below result) (ConcurrentQueue.tryDequeue_some result).2.1
  | foundEmpty looping below result =>
      refine .loop (.foundEmpty looping below result) ?_
      obtain ⟨_, same⟩ := ConcurrentQueue.tryDequeue_none result
      subst same
      rfl
  | reachedLimit looping limit => exact .loop (.reachedLimit looping limit) rfl
  | missing dispatching absent ran =>
      obtain ⟨_, same⟩ := EStateM.Result.ok.inj ran
      exact .loop (.missing dispatching absent ran) (by rw [← same]; rfl)
  | dispatch dispatching holds ran =>
      refine .loop (.dispatch dispatching holds ran) ?_
      rw [dispatch_eventQueue consistent dispatching holds ran]

theorem hostRun_of_run {path : List System} (consistent : system.Consistent platform config)
    (run : Run (Step platform sourceMod) system path after) :
    Run (HostStep platform sourceMod (fun _ _ => True)) system path after := by
  induction run with
  | refl => exact .refl
  | snoc earlier stepped ih =>
      have reached := earlier.invariant consistent fun held step => step.consistent held
      exact ih.snoc (hostStep_of_step reached stepped)

end

def scoreSample : Json :=
  .object [(text "args", .object [(text "count", .numberUnsigned 3)]),
    (text "event", .string (text "a"))]

def keepingPlugins : SourceMod := .simple fun _ => [.read .getInt (some (text "count"))]

/-- Two events; the function called for the second reads through the handle of the first, deletes
it, and reads again. -/
theorem keepingPlugins_run : ∃ path before path' system,
    Run (HostStep .x64 keepingPlugins (fun _ _ => True)) (System.start {}) path before ∧
      before.phase = .dispatching 0 1 ⟨text "a", some 1⟩ ∧
      (∃ serving, Executing .x64 keepingPlugins ⟨text "a", some 1⟩ 1 before.extension serving ∧
        AssocMap.find 1 serving.extension.handles = some 0 ∧
        ∃ tree, serving.extension.store.objects.load 0 = some tree ∧
          ¬ tree.Walkable (text "count/x")) ∧
      Run (HostStep .x64 keepingPlugins (fun _ _ => True)) (System.start {}) path' system ∧
      system.extension.reads =
        [⟨⟨0, 0⟩, 1, .getInt, some (text "count"), some (3, [])⟩,
          ⟨⟨0, 0⟩, 1, .getInt, some (text "count"), none⟩] := by
  have arrived : Run (HostStep .x64 keepingPlugins (fun _ _ => True)) (System.start {}) _ _ :=
    .snoc (.snoc .refl (.arrive (some {}) scoreSample trivial (by decide)))
      (.arrive (some {}) scoreSample trivial (by decide))
  have listening := (arrived.snoc (.loop (.native 0 (.addEventListener (text "a") 0) rfl) rfl)).snoc
    (.loop (.enterFrame rfl) rfl)
  have first := listening.snoc (.loop (.dequeue rfl (by decide) rfl) rfl)
  have kept := first.snoc (.execute rfl rfl
    ⟨0, _, rfl, rfl, .snoc (.snoc .refl (.enter rfl rfl)) (.leave rfl)⟩)
  have second := kept.snoc (.loop (.dequeue rfl (by decide) rfl) rfl)
  have finished := second.snoc (.execute rfl rfl
    ⟨0, _, rfl, rfl, .snoc (.snoc (.snoc (.snoc .refl (.enter rfl rfl))
      (.native 1 (.read .getInt (some (text "count"))) rfl rfl))
      (.native 1 .deleteHandle rfl rfl))
      (.fail 1 (.read .getInt (some (text "count"))) rfl rfl)⟩)
  exact ⟨_, _, _, _, second, rfl, ⟨_, ⟨0, _, rfl, rfl, .snoc .refl (.enter rfl rfl)⟩, rfl, _, rfl,
    (by decide : ¬ (false = true))⟩, finished, rfl⟩

end SocketEvents
