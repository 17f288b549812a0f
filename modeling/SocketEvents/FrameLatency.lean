import SocketEvents.HostRuns

/-!
How long a message waits: what was enqueued has been dispatched as soon as enough frames have
come to their end, whatever arrives and whatever the plugins do in the meantime.
-/

namespace SocketEvents

open Execution Transition

def System.dequeuedAtFrame (system : System) : Nat :=
  match system.phase with
  | .outside => system.extension.dequeuedCount
  | .looping dequeuedBefore _ => dequeuedBefore
  | .dispatching dequeuedBefore _ _ => dequeuedBefore

/-- A state some way down a run: everything that had been enqueued before is dequeued, or each
frame that has ended dequeued as many messages as it may. -/
structure System.Since (limit : Nat) (before state : System) : Prop where
  enqueued : before.extension.store.eventQueue.enqueued <+:
    state.extension.store.eventQueue.enqueued
  frames : before.frames.length ≤ state.frames.length
  progress : before.extension.store.eventQueue.enqueued.length ≤
      state.extension.dequeuedCount ∨
    before.extension.dequeuedCount + limit * (state.frames.length - before.frames.length) ≤
      state.dequeuedAtFrame

section
variable {platform : Platform} {sourceMod : SourceMod} {arriving : Option Config → Json → Prop}
  {config : Config} {before system after : System} {limit : Nat}

theorem since_within (since : before.Since limit system)
    (enqueued : system.extension.store.eventQueue.enqueued <+:
      after.extension.store.eventQueue.enqueued)
    (frames : after.frames = system.frames)
    (count : system.extension.dequeuedCount ≤ after.extension.dequeuedCount)
    (base : system.dequeuedAtFrame ≤ after.dequeuedAtFrame) : before.Since limit after := by
  refine ⟨since.enqueued.trans enqueued, frames ▸ since.frames, ?_⟩
  rw [frames]
  exact since.progress.imp (Nat.le_trans · count) (Nat.le_trans · base)

theorem since_sameQueue (since : before.Since limit system)
    (queue : after.extension.store.eventQueue = system.extension.store.eventQueue)
    (frames : after.frames = system.frames)
    (base : system.dequeuedAtFrame ≤ after.dequeuedAtFrame) : before.Since limit after := by
  have count : after.extension.dequeuedCount = system.extension.dequeuedCount :=
    congrArg (fun eventQueue => eventQueue.dequeued.length) queue
  exact since_within since (queue ▸ List.prefix_refl _) frames (Nat.le_of_eq count.symm) base

theorem since_leaveFrame {dequeuedBefore iteration : Nat} {foundEmpty : Bool}
    (since : before.Since limit system)
    (looping : system.phase = .looping dequeuedBefore iteration)
    (dequeued : before.extension.store.eventQueue.enqueued.length ≤
        system.extension.dequeuedCount ∨
      dequeuedBefore + limit ≤ system.extension.dequeuedCount) :
    before.Since limit (system.leaveFrame dequeuedBefore foundEmpty system.extension) := by
  obtain ⟨enqueued, frames, progress⟩ := since
  have one : (system.leaveFrame dequeuedBefore foundEmpty system.extension).frames.length =
      system.frames.length + 1 := by simp [System.leaveFrame]
  refine ⟨enqueued, by omega, ?_⟩
  rcases progress with done | ahead
  · exact .inl done
  · rcases dequeued with done | full
    · exact .inl done
    · refine .inr ?_
      have base : system.dequeuedAtFrame = dequeuedBefore := by
        simp [System.dequeuedAtFrame, looping]
      have split : system.frames.length + 1 - before.frames.length =
          system.frames.length - before.frames.length + 1 := by omega
      rw [one, split, Nat.mul_succ, ← Nat.add_assoc]
      rw [base] at ahead
      exact Nat.le_trans (Nat.add_le_add_right ahead limit) full

theorem loop_since (stepped : Step platform sourceMod system after)
    (consistent : system.Consistent platform config)
    (since : before.Since (config.frameLimit platform) system) :
    before.Since (config.frameLimit platform) after := by
  cases stepped with
  | arrive serverConfig json wellFormed =>
      rcases Extension.arrive_cases platform serverConfig wellFormed system.extension with same |
        ⟨name, args, regular, same⟩
      · rw [same]
        exact since
      · rw [same]
        refine since_within since ?_ rfl (Nat.le_refl _) (Nat.le_refl _)
        exact List.prefix_append _ _
  | native plugin native outside =>
      obtain ⟨_, _, same⟩ := native.run_frame plugin system.extension
      rw [same]
      exact since_sameQueue since rfl rfl (Nat.le_refl _)
  | enterFrame outside =>
      refine since_sameQueue since rfl rfl ?_
      simp [System.dequeuedAtFrame, outside]
  | dequeue looping below result =>
      obtain ⟨_, enqueued, dequeued⟩ := ConcurrentQueue.tryDequeue_some result
      refine since_within since ?_ rfl ?_ ?_
      · simp only [Extension.dequeued, enqueued]
        exact List.prefix_refl _
      · simp [Extension.dequeuedCount, Extension.dequeued, dequeued]
      · simp [System.dequeuedAtFrame, looping]
  | foundEmpty looping below result =>
      obtain ⟨empty, same⟩ := ConcurrentQueue.tryDequeue_none result
      subst same
      refine since_leaveFrame since looping (.inl ?_)
      have fifo := consistent.fifo
      rw [empty, List.append_nil] at fifo
      rw [Extension.dequeuedCount, fifo]
      exact since.enqueued.length_le
  | reachedLimit looping reached =>
      refine since_leaveFrame since looping (.inr ?_)
      have counts := consistent.counts
      rw [looping] at counts
      rw [consistent.unchanged] at reached
      obtain ⟨counted, _⟩ := counts
      omega
  | missing dispatching absent ran =>
      -- no message without arguments is ever dequeued
      have counts := consistent.counts
      rw [dispatching] at counts
      obtain ⟨_, _, complete⟩ := counts
      simp [absent] at complete
  | dispatch dispatching holds ran =>
      have queue := dispatch_eventQueue consistent dispatching holds ran
      refine since_sameQueue since queue rfl ?_
      simp [System.dequeuedAtFrame, dispatching]

theorem HostStep.since (stepped : HostStep platform sourceMod arriving system after)
    (consistent : system.Consistent platform config)
    (since : before.Since (config.frameLimit platform) system) :
    before.Since (config.frameLimit platform) after := by
  cases stepped with
  | arrive serverConfig json kind wellFormed =>
      have stepped : Step platform sourceMod system _ := .arrive serverConfig json wellFormed
      exact loop_since stepped consistent since
  | loop stepped silent => exact loop_since stepped consistent since
  | call listener handle call outside ends =>
      have sound := consistent.sound
      rw [outside] at sound
      have serves := (effect_of_ends sound ends).serves sound
      refine since_sameQueue since serves.eventQueue rfl ?_
      simp [System.dequeuedAtFrame, outside, Extension.dequeuedCount, serves.eventQueue]
  | execute dispatching holds executing =>
      obtain ⟨_, keeps⟩ := execute_keeps consistent dispatching holds executing
      refine since_sameQueue since keeps.eventQueue rfl ?_
      simp [System.dequeuedAtFrame, dispatching]

theorem since_of_run {path path' : List System}
    (reached : Run (HostStep platform sourceMod arriving) (System.start config) path before)
    (outside : before.phase = .outside)
    (run : Run (HostStep platform sourceMod arriving) before path' system) :
    before.Since (config.frameLimit platform) system := by
  induction run with
  | refl =>
      refine ⟨List.prefix_refl _, Nat.le_refl _, .inr ?_⟩
      simp [System.dequeuedAtFrame, outside]
  | snoc earlier stepped ih =>
      exact stepped.since (consistent_of_hostRun (reached.append earlier)) ih

/-- Frames enough for the messages that waited have ended, so each of these messages has been
dispatched, before everything that came later. -/
theorem dispatched_within {path path' : List System}
    (reached : Run (HostStep platform sourceMod arriving) (System.start config) path before)
    (outside : before.phase = .outside)
    (run : Run (HostStep platform sourceMod arriving) before path' system)
    (outside' : system.phase = .outside)
    (enough : before.extension.store.eventQueue.contents.length ≤
      config.frameLimit platform * (system.frames.length - before.frames.length)) :
    before.extension.store.eventQueue.enqueued <+: system.extension.outcomes.map Prod.fst := by
  have since := since_of_run reached outside run
  have earlier := consistent_of_hostRun reached
  have later := consistent_of_hostRun (reached.append run)
  have ended := later.ended
  simp only [outside', Phase.inFlight, List.append_nil] at ended
  have split := congrArg List.length earlier.fifo
  rw [List.length_append] at split
  have dequeued : before.extension.store.eventQueue.enqueued.length ≤
      system.extension.store.eventQueue.dequeued.length := by
    rcases since.progress with done | ahead
    · exact done
    · simp only [System.dequeuedAtFrame, outside', Extension.dequeuedCount] at ahead
      omega
  rw [ended]
  have all : system.extension.store.eventQueue.dequeued <+:
      system.extension.store.eventQueue.enqueued := ⟨_, later.fifo⟩
  exact List.prefix_of_prefix_length_le since.enqueued all dequeued

end

theorem dispatched_within_frame : ∃ system : System, system.phase = .outside ∧
    [{ name := text "a", args := some 0 }] <+: system.extension.outcomes.map Prod.fst := by
  have arrived : Run (HostStep .x64 deletingPlugins fun _ _ => True) (System.start {}) _ _ :=
    .snoc .refl (.arrive (some {}) eventSample trivial (by decide))
  have limit : Config.frameLimit .x64 {} = 4 := by decide
  have framed : ∃ after, (onGameFrame .x64 deletingPlugins).run
      (Extension.arrive .x64 (some {}) eventSample { config := {} }) = .ok () after := by
    rw [run_onGameFrame, show Extension.config _ = {} from rfl, limit]
    exact ⟨_, rfl⟩
  obtain ⟨after, ran⟩ := framed
  obtain ⟨path, frame, run⟩ := run_of_onGameFrame (consistent_of_hostRun arrived) rfl ran
  have hosted := hostRun_of_run (consistent_of_hostRun arrived) run
  have enough : 1 ≤ Config.frameLimit .x64 {} * 1 := by decide
  exact ⟨_, rfl, dispatched_within arrived rfl hosted rfl enough⟩

end SocketEvents
