import SocketEvents.DispatchJournal

/-!
Delivery over every interleaving of the two threads: nothing lost, nothing sent twice, nothing
out of order, and no frame beyond its limit.
-/

namespace SocketEvents

open Execution Transition

theorem frameLimit_of_nonneg (platform : Platform) {config : Config}
    (nonneg : 0 ≤ config.eventsPerFrame.toInt) :
    (config.frameLimit platform : Int) = config.eventsPerFrame.toInt := by
  have upper := config.eventsPerFrame.toInt_lt
  have exact : config.eventsPerFrame.toInt % 2 ^ platform.sizeBits =
      config.eventsPerFrame.toInt := by
    refine Int.emod_eq_of_lt nonneg (Int.lt_of_lt_of_le upper ?_)
    cases platform <;> decide
  rw [Config.frameLimit, Platform.toSizeT, exact, Int.toNat_of_nonneg nonneg]

def System.dequeuedThisFrame (system : System) : Nat :=
  match system.phase with
  | .outside => 0
  | .looping dequeuedBefore _ => system.extension.dequeuedCount - dequeuedBefore
  | .dispatching dequeuedBefore _ _ => system.extension.dequeuedCount - dequeuedBefore

structure System.Delivers (platform : Platform) (sourceMod : SourceMod) (eventsPerFrame : Int)
    (path : List System) (system : System) : Prop where
  exactlyOnce : system.extension.store.eventQueue.dequeued ++
    system.extension.store.eventQueue.contents = system.extension.store.eventQueue.enqueued
  limited : ∀ frame ∈ system.frames, (frame.dequeued : Int) ≤ eventsPerFrame ∧
    ((frame.dequeued : Int) < eventsPerFrame → frame.foundEmpty = true)
  underWay : (system.dequeuedThisFrame : Int) ≤ eventsPerFrame
  ended : system.extension.outcomes.map Prod.fst ++ system.phase.inFlight =
    system.extension.store.eventQueue.dequeued
  outcome : ∃ entries, Journal entries system.extension ∧ ∀ entry ∈ entries, ∃ before after,
    [before, after] <:+: path ++ [system] ∧ before.Finishes sourceMod after entry
  progress : ∀ message ∈ system.phase.inFlight, ∃ args, message.args = some args ∧
    ((∃ after, (dispatchMessage platform sourceMod message args).run system.extension =
        .ok () after) ∨
      ∃ listener ∈ (system.extension.forwardOf message.name).functions,
        Walks (sourceMod.callback listener))

section
variable {platform : Platform} {sourceMod : SourceMod} {config : Config} {system : System}

theorem System.Consistent.dequeuedThisFrame (consistent : system.Consistent platform config) :
    system.dequeuedThisFrame ≤ config.frameLimit platform := by
  have counts := consistent.counts
  unfold System.dequeuedThisFrame
  cases phase : system.phase with
  | outside => exact Nat.zero_le _
  | looping dequeuedBefore iteration =>
      rw [phase] at counts
      obtain ⟨counted, bounded⟩ := counts
      have span : system.extension.dequeuedCount - dequeuedBefore = iteration := by omega
      simp only [span]
      exact bounded
  | dispatching dequeuedBefore iteration message =>
      rw [phase] at counts
      obtain ⟨counted, below, _⟩ := counts
      have span : system.extension.dequeuedCount - dequeuedBefore = iteration + 1 := by omega
      simp only [span]
      exact below

theorem System.Consistent.dispatches (consistent : system.Consistent platform config) :
    ∀ message ∈ system.phase.inFlight, ∃ args, message.args = some args ∧
      ((∃ after, (dispatchMessage platform sourceMod message args).run system.extension =
          .ok () after) ∨
        ∃ listener ∈ (system.extension.forwardOf message.name).functions,
          Walks (sourceMod.callback listener)) := by
  intro message member
  obtain ⟨args, holds, sound⟩ := consistent.inFlight member
  refine ⟨args, holds, ?_⟩
  rcases run_dispatchMessage platform sourceMod message sound with ⟨after, ran, _⟩ | ⟨walks, _⟩
  · exact .inl ⟨after, ran⟩
  · exact .inr walks

theorem delivers (config : Config) (nonneg : 0 ≤ config.eventsPerFrame.toInt)
    {path : List System}
    (run : Run (Step platform sourceMod) (System.start config) path system) :
    system.Delivers platform sourceMod config.eventsPerFrame.toInt path := by
  have consistent := consistent_of_run run
  have limit := frameLimit_of_nonneg platform nonneg
  refine ⟨consistent.fifo, ?_, ?_, consistent.ended, recorded_of_run run, ?_⟩
  · intro frame member
    obtain ⟨bounded, short⟩ := consistent.frames frame member
    rw [← limit]
    exact ⟨Int.ofNat_le.mpr bounded, fun below => short (Int.ofNat_lt.mp below)⟩
  · rw [← limit]
    exact Int.ofNat_le.mpr consistent.dequeuedThisFrame
  · exact consistent.dispatches

end

def otherSample : Json := .object [(text "args", .object []), (text "event", .string (text "b"))]

def twoEvents : Extension :=
  ((Extension.afterNatives [(0, .addEventListener (text "a") 0)] { config := {} }).arrive .x86
    (some {}) eventSample).arrive .x86 (some {}) otherSample

theorem twoEvents_run : ∃ path system,
    Run (Step .x86 deletingPlugins) (System.start {}) path system ∧
      system.extension.outcomes = [({ name := text "a", args := some 0 }, .executed 0),
        ({ name := text "b", args := some 1 }, .discarded)] ∧
      system.extension.calls = [(1, { plugin := 0, function := 0 })] ∧
      system.extension.store.objects.freed = [0, 1] := by
  have outside : (System.start {}).phase = .outside := rfl
  obtain ⟨_, registered⟩ := run_of_natives .x86 deletingPlugins
    [(0, .addEventListener (text "a") 0)] outside
  have arrived := (registered.snoc (.arrive (some {}) eventSample (by decide))).snoc
    (.arrive (some {}) otherSample (by decide))
  have returned : (onGameFrame .x86 deletingPlugins).run' twoEvents = some () := by decide +kernel
  have outcomes : (resultState ((onGameFrame .x86 deletingPlugins).run twoEvents)).outcomes =
      [({ name := text "a", args := some 0 }, .executed 0),
        ({ name := text "b", args := some 1 }, .discarded)] := by decide +kernel
  have calls : (resultState ((onGameFrame .x86 deletingPlugins).run twoEvents)).calls =
      [(1, { plugin := 0, function := 0 })] := by decide +kernel
  have freed : (resultState
      ((onGameFrame .x86 deletingPlugins).run twoEvents)).store.objects.freed = [0, 1] := by
    decide +kernel
  cases ran : (onGameFrame .x86 deletingPlugins).run twoEvents with
  | error fault after =>
      delta EStateM.run' at returned
      simp [ran] at returned
  | ok _ after =>
      rw [ran] at outcomes calls freed
      obtain ⟨_, frame, run⟩ := run_of_onGameFrame (consistent_of_run arrived) rfl ran
      exact ⟨_, _, arrived.append run, outcomes, calls, freed⟩

theorem delivers_twoEvents : ∃ path, ∃ system : System,
    system.extension.outcomes = [({ name := text "a", args := some 0 }, .executed 0),
      ({ name := text "b", args := some 1 }, .discarded)] ∧
    system.extension.calls = [(1, { plugin := 0, function := 0 })] ∧
    system.extension.store.objects.freed = [0, 1] ∧
      system.Delivers .x86 deletingPlugins 4 path := by
  obtain ⟨path, system, run, outcomes, calls, freed⟩ := twoEvents_run
  exact ⟨path, system, outcomes, calls, freed, delivers {} (by decide) run⟩

end SocketEvents
