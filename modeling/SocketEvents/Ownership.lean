import SocketEvents.EventLoop

/-!
What becomes of the arguments of the messages that the frames dequeue, over whole runs.
-/

namespace SocketEvents

open Execution Transition

/-- The readme's rule: every plugin function deletes its handle. -/
def SourceMod.FollowsReadme (sourceMod : SourceMod) : Prop :=
  ∀ listener, .deleteHandle ∈ sourceMod.callback listener

/-- The message in flight goes to a forward without functions, through a handle. -/
def System.Abandons (sourceMod : SourceMod) (system : System) : Prop :=
  ∃ message ∈ system.phase.inFlight,
    (AssocMap.find message.name system.extension.eventForwards).isSome = true ∧
      (system.extension.forwardOf message.name).functions = [] ∧
      sourceMod.nextError system.extension = 0

def System.DestroysOnce (system : System) : Prop :=
  ∀ message ∈ system.extension.store.eventQueue.dequeued, ∃ args, message.args = some args ∧
    system.extension.store.objects.freed.count args = 1

namespace Extension

def Released (extension : Extension) : Prop :=
  ∀ message ∈ extension.outcomes.map Prod.fst, ∃ args, message.args = some args ∧
    args ∈ extension.store.objects.freed

def Leaked (extension : Extension) : Prop :=
  ∃ message ∈ extension.outcomes.map Prod.fst, ∃ args handle, message.args = some args ∧
    AssocMap.find handle extension.handles = some args

end Extension

section
variable {platform : Platform} {sourceMod : SourceMod} {config : Config} {system after : System}

theorem Step.dispatches_or_keeps (stepped : Step platform sourceMod system after)
    (consistent : system.Consistent platform config) :
    (after.extension.outcomes = system.extension.outcomes ∧
      after.extension.handles = system.extension.handles ∧
      after.extension.store.objects.freed = system.extension.store.objects.freed ∧
      (system.Abandons sourceMod → after.Abandons sourceMod)) ∨
    ∃ message args, system.phase.inFlight = [message] ∧ message.args = some args ∧
      Dispatched sourceMod message args system.extension after.extension := by
  cases stepped with
  | arrive serverConfig json wellFormed =>
      rcases Extension.arrive_cases platform serverConfig wellFormed system.extension with same |
        ⟨name, args, regular, same⟩
      · rw [same]
        exact .inl ⟨rfl, rfl, rfl, id⟩
      · rw [same]
        exact .inl ⟨rfl, rfl, rfl, id⟩
  | native plugin native outside =>
      obtain ⟨_, _, same⟩ := native.run_frame plugin system.extension
      rw [same]
      exact .inl ⟨rfl, rfl, rfl, by simp [System.Abandons, outside, Phase.inFlight]⟩
  | enterFrame outside =>
      exact .inl ⟨rfl, rfl, rfl, by simp [System.Abandons, outside, Phase.inFlight]⟩
  | dequeue looping below result =>
      exact .inl ⟨rfl, rfl, rfl, by simp [System.Abandons, looping, Phase.inFlight]⟩
  | foundEmpty looping below result =>
      exact .inl ⟨rfl, rfl, rfl, by simp [System.Abandons, looping, Phase.inFlight]⟩
  | reachedLimit looping limit =>
      exact .inl ⟨rfl, rfl, rfl, by simp [System.Abandons, looping, Phase.inFlight]⟩
  | missing dispatching absent ran =>
      -- no message without arguments is ever dequeued
      have counts := consistent.counts
      rw [dispatching] at counts
      obtain ⟨_, _, complete⟩ := counts
      simp [absent] at complete
  | @dispatch _ _ message args after dispatching held ran =>
      have sound := consistent.sound
      rw [dispatching] at sound
      simp only [Phase.inHand, held] at sound
      rcases run_dispatchMessage platform sourceMod message sound with
        ⟨other, ran', _, dispatched⟩ | ⟨_, defect, other, crashed⟩
      · rw [ran, EStateM.Result.ok.injEq] at ran'
        obtain ⟨_, rfl⟩ := ran'
        exact .inr ⟨message, args, by simp [dispatching, Phase.inFlight], held, dispatched⟩
      · rw [ran] at crashed
        simp at crashed

theorem Step.released (stepped : Step platform sourceMod system after)
    (deletes : sourceMod.FollowsReadme) (consistent : system.Consistent platform config)
    (released : system.extension.Released) (kept : ¬ system.Abandons sourceMod) :
    after.extension.Released := by
  rcases stepped.dispatches_or_keeps consistent with ⟨outcomes, _, freed, _⟩ |
    ⟨message, args, inFlight, held, dispatched⟩
  · intro message member
    rw [outcomes] at member
    rw [freed]
    exact released message member
  · have freed := dispatched.freed deletes fun abandons =>
      kept ⟨message, by simp [inFlight], abandons⟩
    obtain ⟨outcome, outcomes⟩ := dispatched.outcomes
    intro other member
    rw [outcomes, List.map_append, List.mem_append] at member
    rw [freed]
    rcases member with older | newest
    · obtain ⟨owned, holds, destroyed⟩ := released other older
      exact ⟨owned, holds, List.mem_append_left _ destroyed⟩
    · have same : other = message := by simpa using newest
      exact ⟨args, same ▸ held, by simp⟩

theorem Step.leaked (stepped : Step platform sourceMod system after)
    (consistent : system.Consistent platform config)
    (lost : system.extension.Leaked ∨ system.Abandons sourceMod) :
    after.extension.Leaked ∨ after.Abandons sourceMod := by
  rcases stepped.dispatches_or_keeps consistent with ⟨outcomes, handles, _, inFlight⟩ |
    ⟨message, args, inFlight, held, dispatched⟩
  · refine lost.imp ?_ inFlight
    rintro ⟨other, member, owned, handle, holds, valid⟩
    exact ⟨other, outcomes ▸ member, owned, handle, holds, handles ▸ valid⟩
  · obtain ⟨outcome, outcomes⟩ := dispatched.outcomes
    refine .inl ?_
    rcases lost with ⟨other, member, owned, handle, holds, valid⟩ |
      ⟨other, member, bound, functions, created⟩
    · refine ⟨other, ?_, owned, handle, holds, dispatched.others valid⟩
      rw [outcomes, List.map_append]
      exact List.mem_append_left _ member
    · have same : other = message := by simpa [inFlight] using member
      subst same
      refine ⟨other, ?_, args, _, held,
        dispatched.abandoned bound functions created⟩
      simp [outcomes]

/-- A run keeps every promise until it abandons a message, and none after it. -/
theorem released_or_leaked {path : List System} (deletes : sourceMod.FollowsReadme)
    (run : Run (Step platform sourceMod) (System.start config) path system) :
    ((∀ visited ∈ path, ¬ visited.Abandons sourceMod) ∧ system.extension.Released) ∨
      ((∃ visited ∈ path, visited.Abandons sourceMod) ∧
        (system.extension.Leaked ∨ system.Abandons sourceMod)) := by
  have decided := run.clean_or_dirty (System.Abandons sourceMod)
    (fun state => state.Consistent platform config ∧ state.extension.Released)
    (fun state => state.Consistent platform config ∧
      (state.extension.Leaked ∨ state.Abandons sourceMod))
    ⟨consistent_start platform config, by simp [Extension.Released, System.start]⟩
    (fun stepped ⟨consistent, released⟩ kept =>
      ⟨stepped.consistent consistent, stepped.released deletes consistent released kept⟩)
    (fun stepped ⟨consistent, _⟩ abandons =>
      ⟨stepped.consistent consistent, stepped.leaked consistent (.inr abandons)⟩)
    (fun stepped ⟨consistent, lost⟩ =>
      ⟨stepped.consistent consistent, stepped.leaked consistent lost⟩)
  rcases decided with ⟨kept, _, released⟩ | ⟨abandons, _, lost⟩
  · exact .inl ⟨kept, released⟩
  · exact .inr ⟨abandons, lost⟩

theorem destroysOnce_iff {path : List System} (deletes : sourceMod.FollowsReadme)
    (run : Run (Step platform sourceMod) (System.start config) path system)
    (outside : system.phase = .outside) :
    system.DestroysOnce ↔ ∀ visited ∈ path, ¬ visited.Abandons sourceMod := by
  have consistent := consistent_of_run run
  have ended := consistent.ended
  simp only [outside, Phase.inFlight, List.append_nil] at ended
  rcases released_or_leaked deletes run with ⟨kept, released⟩ | ⟨⟨visited, member, abandons⟩, lost⟩
  · refine ⟨fun _ => kept, ?_⟩
    intro _ message dequeued
    obtain ⟨args, held, freed⟩ := released message (ended ▸ dequeued)
    exact ⟨args, held, List.count_eq_one_of_mem (Heap.freed_nodup _) freed⟩
  · refine ⟨?_, fun kept => (kept visited member abandons).elim⟩
    intro destroysOnce
    -- a handle still leads to the arguments, and what a handle leads to was never freed
    rcases lost with ⟨message, finished, args, handle, held, valid⟩ | ⟨message, inFlight, _⟩
    · obtain ⟨other, held', once⟩ := destroysOnce message (ended ▸ finished)
      obtain rfl : other = args := Option.some.inj (held'.symm.trans held)
      have freed : other ∈ system.extension.store.objects.freed :=
        List.count_pos_iff.mp (by omega)
      exact (Heap.not_live_of_freed freed (consistent.sound.live_of_handle valid)).elim
    · simp [outside, Phase.inFlight] at inFlight

end

theorem removedListener_run : ∃ path system,
    Run (Step .x64 deletingPlugins) (System.start {}) path system ∧ system.phase = .outside ∧
      system.extension.store.eventQueue.dequeued = [{ name := text "a", args := some 0 }] ∧
      system.extension.store.objects.freed = [] := by
  have limit : Config.frameLimit .x64 {} = 4 := by decide
  have framed : ∃ after, (onGameFrame .x64 deletingPlugins).run
      ((Extension.afterNatives [(0, .addEventListener (text "a") 0),
        (0, .removeEventListener (text "a") 0)] { config := {} }).arrive .x64 (some {})
          eventSample) = .ok () after ∧
      after.store.eventQueue.dequeued = [{ name := text "a", args := some 0 }] ∧
        after.store.objects.freed = [] := by
    rw [run_onGameFrame, show Extension.config _ = {} from rfl, limit]
    exact ⟨_, rfl, rfl, rfl⟩
  obtain ⟨after, ran, dequeued, freed⟩ := framed
  obtain ⟨path, frame, run⟩ := run_of_event _ (some {}) (by decide) ran
  exact ⟨path, _, run, rfl, dequeued, freed⟩

theorem removedListener_leaks : ¬ ∀ platform sourceMod config path (system : System),
    sourceMod.FollowsReadme → Run (Step platform sourceMod) (System.start config) path system →
      system.phase = .outside → system.DestroysOnce := by
  intro destroys
  obtain ⟨path, system, run, outside, dequeued, freed⟩ := removedListener_run
  obtain ⟨args, _, once⟩ := destroys .x64 deletingPlugins {} path system
    (fun _ => List.mem_singleton.mpr rfl) run outside { name := text "a", args := some 0 }
    (by simp [dequeued])
  simp [freed] at once

theorem destroysOnce_iff_addedListener : ∃ (path : List System) (system : System),
    Run (Step .x64 deletingPlugins) (System.start {}) path system ∧
      system.DestroysOnce ∧ ∀ visited ∈ path, ¬ visited.Abandons deletingPlugins := by
  have limit : Config.frameLimit .x64 {} = 4 := by decide
  have framed : ∃ after, (onGameFrame .x64 deletingPlugins).run
      ((Extension.afterNatives [(0, .addEventListener (text "a") 0)] { config := {} }).arrive .x64
        (some {}) eventSample) = .ok () after ∧
      after.store.eventQueue.dequeued = [{ name := text "a", args := some 0 }] ∧
        after.store.objects.freed = [0] := by
    rw [run_onGameFrame, show Extension.config _ = {} from rfl, limit]
    exact ⟨_, rfl, rfl, rfl⟩
  obtain ⟨after, ran, dequeued, freed⟩ := framed
  obtain ⟨path, frame, run⟩ := run_of_event _ (some {}) (by decide) ran
  have destroysOnce : System.DestroysOnce { extension := after, frames := [frame] } := by
    intro message member
    rw [dequeued, List.mem_singleton] at member
    exact ⟨0, by rw [member], by simp [freed]⟩
  exact ⟨path, _, run, destroysOnce,
    (destroysOnce_iff (fun _ => List.mem_singleton.mpr rfl) run rfl).mp destroysOnce⟩

end SocketEvents
