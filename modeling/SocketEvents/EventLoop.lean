import SocketEvents.Dispatch
import SocketEvents.Transition

/-!
The server thread and the game thread over one store. The server thread may run
`ParseMessageAndEnqueue` at any time; the game thread calls listener natives between frames, and
its frames go through the iterations of `OnGameFrame` one at a time.
-/

namespace SocketEvents

open Execution Transition

/-- Where the game thread is. A frame keeps how many messages had been dequeued before it. -/
inductive Phase
  | outside
  | looping (dequeuedBefore iteration : Nat)
  | dispatching (dequeuedBefore iteration : Nat) (message : EventMessage)

structure FrameRecord where
  dequeued : Nat
  foundEmpty : Bool

structure System where
  extension : Extension
  phase : Phase := .outside
  frames : List FrameRecord := []

namespace Extension

def arrive (platform : Platform) (serverConfig : Option Config) (json : Json)
    (extension : Extension) : Extension :=
  { extension with
    store := resultState ((parseMessageAndEnqueue platform serverConfig json).run extension.store) }

def dequeuedCount (extension : Extension) : Nat := extension.store.eventQueue.dequeued.length

def dequeued (eventQueue : ConcurrentQueue) (extension : Extension) : Extension :=
  { extension with store := { extension.store with eventQueue } }

end Extension

def System.leaveFrame (dequeuedBefore : Nat) (foundEmpty : Bool) (extension : Extension)
    (system : System) : System where
  extension := extension
  phase := .outside
  frames := system.frames ++
    [{ dequeued := extension.dequeuedCount - dequeuedBefore, foundEmpty }]

section
variable (platform : Platform) (sourceMod : SourceMod)

inductive Step (system : System) : System → Prop
  | arrive (serverConfig : Option Config) (json : Json) : json.WellFormed →
      Step system
        { system with extension := system.extension.arrive platform serverConfig json }
  | native (plugin : Plugin) (native : ListenerNative) : system.phase = .outside →
      Step system { system with extension := native.run plugin system.extension }
  | enterFrame : system.phase = .outside →
      Step system { system with phase := .looping system.extension.dequeuedCount 0 }
  | dequeue {dequeuedBefore iteration : Nat} {message : EventMessage}
      {eventQueue : ConcurrentQueue} :
      system.phase = .looping dequeuedBefore iteration →
      iteration < system.extension.config.frameLimit platform →
      system.extension.store.eventQueue.tryDequeue = (some message, eventQueue) →
      Step system { system with
        extension := system.extension.dequeued eventQueue
        phase := .dispatching dequeuedBefore iteration message }
  | foundEmpty {dequeuedBefore iteration : Nat} {eventQueue : ConcurrentQueue} :
      system.phase = .looping dequeuedBefore iteration →
      iteration < system.extension.config.frameLimit platform →
      system.extension.store.eventQueue.tryDequeue = (none, eventQueue) →
      Step system (system.leaveFrame dequeuedBefore true (system.extension.dequeued eventQueue))
  | reachedLimit {dequeuedBefore iteration : Nat} :
      system.phase = .looping dequeuedBefore iteration →
      ¬ iteration < system.extension.config.frameLimit platform →
      Step system (system.leaveFrame dequeuedBefore false system.extension)
  | missing {dequeuedBefore iteration : Nat} {message : EventMessage} {after : Extension} :
      system.phase = .dispatching dequeuedBefore iteration message →
      message.args = none →
      (reportMissing message).run system.extension = .ok () after →
      Step system (system.leaveFrame dequeuedBefore false after)
  | dispatch {dequeuedBefore iteration : Nat} {message : EventMessage} {args : ArgsRef}
      {after : Extension} :
      system.phase = .dispatching dequeuedBefore iteration message →
      message.args = some args →
      (dispatchMessage platform sourceMod message args).run system.extension = .ok () after →
      Step system { system with
        extension := after, phase := .looping dequeuedBefore (iteration + 1) }

def System.start (config : Config) : System := { extension := { config } }

end

namespace Extension

section
variable {extension : Extension} {inHand : Option ArgsRef}

theorem arrive_cases (platform : Platform) (serverConfig : Option Config) {json : Json}
    (wellFormed : json.WellFormed) (extension : Extension) :
    extension.arrive platform serverConfig json = extension ∨
      ∃ name args, args.Regular ∧ extension.arrive platform serverConfig json =
        { extension with store := extension.store.send name args } := by
  have outcome : ParseOutcome platform json extension.store _ :=
    parseMessageAndEnqueue_outcome serverConfig json extension.store
  unfold arrive
  revert outcome
  generalize (parseMessageAndEnqueue platform serverConfig json).run extension.store = result
  intro outcome
  cases outcome with
  | sent name args named built =>
      have settled := ofJson_settled platform (json.member (text "args"))
        (wellFormed.member (text "args"))
      exact .inr ⟨name, args, (settled.of_ok built).1.regular, rfl⟩
  | refused status _ => exact .inl rfl
  | failed fault => exact .inl rfl

theorem Sound.sent (sound : extension.Sound inHand) (name : CString) {args : EventArgs}
    (regular : args.Regular) :
    Sound inHand { extension with store := extension.store.send name args } := by
  have fresh : extension.store.objects.next ∉ extension.owners inHand := by
    rw [← sound.owned]
    intro live
    exact Nat.lt_irrefl _ (Heap.live_below live)
  have split : (owners inHand { extension with store := extension.store.send name args }).Perm
      (extension.store.objects.next :: extension.owners inHand) := by
    simp only [owners, EventStore.send, ConcurrentQueue.enqueue, List.filterMap_append,
      List.filterMap_cons, List.filterMap_nil, List.append_assoc]
    exact List.perm_middle
  refine ⟨⟨sound.forwards.bound, sound.forwards.injective⟩, ?_,
    split.nodup_iff.mpr (List.nodup_cons.mpr ⟨fresh, sound.distinct⟩), ?_,
    sound.handlesDistinct, ?_⟩
  · intro message member
    rcases List.mem_append.mp member with older | newest
    · exact sound.complete message older
    · rw [List.mem_singleton.mp newest]
      rfl
  · intro other
    rw [split.mem_iff, List.mem_cons, ← sound.owned other]
    exact Heap.live_allocate.trans or_comm
  · intro other tree found
    rcases Heap.load_of_allocate found with older | same
    · exact sound.regular other tree older
    · exact same ▸ regular

theorem Sound.dequeued {eventQueue : ConcurrentQueue} {message : EventMessage}
    (sound : extension.Sound none)
    (result : extension.store.eventQueue.tryDequeue = (some message, eventQueue)) :
    (extension.dequeued eventQueue).Sound message.args ∧ message.args.isSome = true := by
  obtain ⟨contents, _, _⟩ := ConcurrentQueue.tryDequeue_some result
  have owners : ((extension.dequeued eventQueue).owners message.args).Perm
      (extension.owners none) := by
    have args : (message :: eventQueue.contents).filterMap EventMessage.args =
        message.args.toList ++ eventQueue.contents.filterMap EventMessage.args := by
      cases held : message.args <;> simp [held]
    simp only [owners, Extension.dequeued, contents, args, Option.toList_none, List.append_nil]
    exact List.Perm.append_right _ List.perm_append_comm
  refine ⟨⟨⟨sound.forwards.bound, sound.forwards.injective⟩, ?_,
    owners.nodup_iff.mpr sound.distinct, ?_, sound.handlesDistinct, sound.regular⟩,
    ?_⟩
  · intro other member
    exact sound.complete other (contents ▸ List.mem_cons_of_mem _ member)
  · intro other
    rw [owners.mem_iff]
    exact sound.owned other
  · exact sound.complete message (contents ▸ List.mem_cons_self)

end

end Extension

namespace Phase

def inFlight : Phase → List EventMessage
  | .dispatching _ _ message => [message]
  | _ => []

def inHand : Phase → Option ArgsRef
  | .dispatching _ _ message => message.args
  | _ => none

def Counts (limit dequeued : Nat) : Phase → Prop
  | .outside => True
  | .looping dequeuedBefore iteration =>
      dequeued = dequeuedBefore + iteration ∧ iteration ≤ limit
  | .dispatching dequeuedBefore iteration message =>
      dequeued = dequeuedBefore + iteration + 1 ∧ iteration < limit ∧ message.args.isSome = true

end Phase

def FrameRecord.Limited (limit : Nat) (frame : FrameRecord) : Prop :=
  frame.dequeued ≤ limit ∧ (frame.dequeued < limit → frame.foundEmpty = true)

structure System.Consistent (platform : Platform) (config : Config) (system : System) : Prop where
  unchanged : system.extension.config = config
  sound : system.extension.Sound system.phase.inHand
  fifo : system.extension.store.eventQueue.dequeued ++ system.extension.store.eventQueue.contents =
    system.extension.store.eventQueue.enqueued
  ended : system.extension.outcomes.map Prod.fst ++ system.phase.inFlight =
    system.extension.store.eventQueue.dequeued
  counts : system.phase.Counts (config.frameLimit platform) system.extension.dequeuedCount
  frames : ∀ frame ∈ system.frames, frame.Limited (config.frameLimit platform)

section
variable {platform : Platform} {sourceMod : SourceMod} {config : Config} {system after : System}

theorem consistent_start (platform : Platform) (config : Config) :
    (System.start config).Consistent platform config := by
  have sound : ({ config } : Extension).Sound none := by
    refine ⟨⟨?_, ?_⟩, ?_, List.nodup_nil, ?_, List.nodup_nil, ?_⟩
    · intro name forward found
      simp at found
    · intro name other forward found
      simp at found
    · intro message member
      simp at member
    · intro args
      exact Iff.rfl
    · intro args tree found
      simp [Heap.load, Heap.empty] at found
  exact ⟨rfl, sound, rfl, rfl, trivial, by simp [System.start]⟩

theorem consistent_arrive (consistent : system.Consistent platform config)
    (serverConfig : Option Config) {json : Json} (wellFormed : json.WellFormed) :
    System.Consistent platform config
      { system with extension := system.extension.arrive platform serverConfig json } := by
  rcases Extension.arrive_cases platform serverConfig wellFormed system.extension with same |
    ⟨name, args, regular, same⟩
  · rw [same]
    exact consistent
  · rw [same]
    refine ⟨consistent.unchanged, consistent.sound.sent name regular, ?_, consistent.ended,
      consistent.counts, consistent.frames⟩
    have fifo := consistent.fifo
    simp only [EventStore.send, ConcurrentQueue.enqueue, ← List.append_assoc, fifo]

theorem consistent_native (consistent : system.Consistent platform config) (plugin : Plugin)
    (native : ListenerNative) : System.Consistent platform config
      { system with extension := native.run plugin system.extension } := by
  have sound := consistent.sound.listeners plugin native
  obtain ⟨_, _, same⟩ := native.run_frame plugin system.extension
  rw [same] at sound ⊢
  exact ⟨consistent.unchanged, sound, consistent.fifo, consistent.ended, consistent.counts,
    consistent.frames⟩

theorem consistent_enterFrame (consistent : system.Consistent platform config)
    (outside : system.phase = .outside) : System.Consistent platform config
      { system with phase := .looping system.extension.dequeuedCount 0 } := by
  obtain ⟨unchanged, sound, fifo, ended, _, frames⟩ := consistent
  rw [outside] at sound ended
  exact ⟨unchanged, sound, fifo, ended, ⟨rfl, Nat.zero_le _⟩, frames⟩

theorem consistent_dequeue {dequeuedBefore iteration : Nat} {message : EventMessage}
    {eventQueue : ConcurrentQueue} (consistent : system.Consistent platform config)
    (looping : system.phase = .looping dequeuedBefore iteration)
    (below : iteration < system.extension.config.frameLimit platform)
    (result : system.extension.store.eventQueue.tryDequeue = (some message, eventQueue)) :
    System.Consistent platform config { system with
      extension := system.extension.dequeued eventQueue
      phase := .dispatching dequeuedBefore iteration message } := by
  obtain ⟨unchanged, sound, fifo, ended, counts, frames⟩ := consistent
  rw [looping] at sound ended counts
  rw [unchanged] at below
  obtain ⟨soundAfter, complete⟩ := sound.dequeued result
  obtain ⟨contents, enqueued, dequeued⟩ := ConcurrentQueue.tryDequeue_some result
  refine ⟨unchanged, soundAfter, ?_, ?_, ⟨?_, below, complete⟩, frames⟩
  · simp only [Extension.dequeued, dequeued, enqueued, ← fifo, contents, List.append_assoc,
      List.singleton_append]
  · simp only [Phase.inFlight, List.append_nil] at ended ⊢
    simp only [Extension.dequeued, dequeued, ended]
  · have counted : system.extension.dequeuedCount = dequeuedBefore + iteration := counts.1
    simp only [Extension.dequeuedCount, Extension.dequeued, dequeued, List.length_append,
      List.length_cons, List.length_nil] at counted ⊢
    omega

theorem consistent_leaveFrame {dequeuedBefore iteration : Nat} {foundEmpty : Bool}
    (consistent : system.Consistent platform config)
    (looping : system.phase = .looping dequeuedBefore iteration)
    (complete : iteration < config.frameLimit platform → foundEmpty = true) :
    (system.leaveFrame dequeuedBefore foundEmpty system.extension).Consistent platform config := by
  obtain ⟨unchanged, sound, fifo, ended, counts, frames⟩ := consistent
  rw [looping] at sound ended counts
  obtain ⟨counted, bounded⟩ := counts
  have counted : system.extension.dequeuedCount = dequeuedBefore + iteration := counted
  refine ⟨unchanged, sound, fifo, ended, trivial, ?_⟩
  intro frame member
  rcases List.mem_append.mp member with older | newest
  · exact frames frame older
  · rw [List.mem_singleton.mp newest, FrameRecord.Limited]
    have span : system.extension.dequeuedCount - dequeuedBefore = iteration := by omega
    simp only [span]
    exact ⟨bounded, complete⟩

theorem consistent_dispatch {dequeuedBefore iteration : Nat} {message : EventMessage}
    {args : ArgsRef} {after : Extension} (consistent : system.Consistent platform config)
    (dispatching : system.phase = .dispatching dequeuedBefore iteration message)
    (held : message.args = some args)
    (ran : (dispatchMessage platform sourceMod message args).run system.extension =
      .ok () after) :
    System.Consistent platform config { system with
      extension := after, phase := .looping dequeuedBefore (iteration + 1) } := by
  obtain ⟨unchanged, sound, fifo, ended, counts, frames⟩ := consistent
  rw [dispatching] at sound ended counts
  simp only [Phase.inHand, held] at sound
  rcases run_dispatchMessage platform sourceMod message sound with
    ⟨other, ran', soundAfter, dispatched⟩ | ⟨_, defect, other, crashed⟩
  · rw [ran, EStateM.Result.ok.injEq] at ran'
    obtain ⟨_, rfl⟩ := ran'
    obtain ⟨outcome, outcomes⟩ := dispatched.outcomes
    obtain ⟨counted, below, _⟩ := counts
    refine ⟨dispatched.config.trans unchanged, soundAfter, ?_, ?_, ⟨?_, below⟩, frames⟩
    · simp only [dispatched.eventQueue, fifo]
    · simp only [dispatched.eventQueue, outcomes, ← ended, List.map_append, List.map_cons,
        List.map_nil, Phase.inFlight, List.append_nil]
    · simp only [Extension.dequeuedCount, dispatched.eventQueue] at counted ⊢
      omega
  · rw [ran] at crashed
    simp at crashed

theorem Step.consistent (stepped : Step platform sourceMod system after)
    (consistent : system.Consistent platform config) : after.Consistent platform config := by
  cases stepped with
  | arrive serverConfig json wellFormed =>
      exact consistent_arrive consistent serverConfig wellFormed
  | native plugin native _ => exact consistent_native consistent plugin native
  | enterFrame outside => exact consistent_enterFrame consistent outside
  | dequeue looping below result => exact consistent_dequeue consistent looping below result
  | foundEmpty looping below result =>
      obtain ⟨_, rfl⟩ := ConcurrentQueue.tryDequeue_none result
      exact consistent_leaveFrame consistent looping fun _ => rfl
  | reachedLimit looping limit =>
      rw [consistent.unchanged] at limit
      exact consistent_leaveFrame consistent looping fun below => (limit below).elim
  | missing dispatching absent ran =>
      have counts := consistent.counts
      rw [dispatching] at counts
      obtain ⟨_, _, complete⟩ := counts
      simp [absent] at complete
  | dispatch dispatching held ran => exact consistent_dispatch consistent dispatching held ran

theorem consistent_of_run {path : List System}
    (run : Run (Step platform sourceMod) (System.start config) path system) :
    system.Consistent platform config :=
  run.invariant (consistent_start platform config) fun consistent stepped =>
    stepped.consistent consistent

theorem System.Consistent.inFlight (consistent : system.Consistent platform config)
    {message : EventMessage} (member : message ∈ system.phase.inFlight) :
    ∃ args, message.args = some args ∧ system.extension.Sound (some args) := by
  have sound := consistent.sound
  have counts := consistent.counts
  cases phase : system.phase with
  | outside => simp [phase, Phase.inFlight] at member
  | looping dequeuedBefore iteration => simp [phase, Phase.inFlight] at member
  | dispatching dequeuedBefore iteration inFlight =>
      rw [phase] at sound counts member
      obtain rfl := List.mem_singleton.mp member
      obtain ⟨args, holds⟩ := Option.isSome_iff_exists.mp counts.2.2
      simp only [Phase.inHand, holds] at sound
      exact ⟨args, holds, sound⟩

/-! The steps of a frame are those of `OnGameFrame` -/

theorem run_tryDequeue (extension : Extension) :
    tryDequeue.run extension = .ok extension.store.eventQueue.tryDequeue.1
      (extension.dequeued extension.store.eventQueue.tryDequeue.2) := rfl

theorem run_onGameFrame (platform : Platform) (sourceMod : SourceMod) (extension : Extension) :
    (onGameFrame platform sourceMod).run extension =
      (onGameFrameFrom platform sourceMod (extension.config.frameLimit platform)).run
        extension := by
  rw [onGameFrame, EStateM.run_bind, EStateM.run_get]

theorem run_of_onGameFrameFrom {dequeuedBefore iteration remaining : Nat} {extension : Extension}
    (consistent : system.Consistent platform config)
    (looping : system.phase = .looping dequeuedBefore iteration)
    (left : iteration + remaining = config.frameLimit platform)
    (ran : (onGameFrameFrom platform sourceMod remaining).run system.extension =
      .ok () extension) :
    ∃ path frame, Run (Step platform sourceMod) system path
      { extension, phase := .outside, frames := system.frames ++ [frame] } := by
  have limit : system.extension.config.frameLimit platform = config.frameLimit platform := by
    rw [consistent.unchanged]
  induction remaining generalizing system iteration with
  | zero =>
      have same : system.extension = extension := by
        simp only [onGameFrameFrom, EStateM.run_pure, EStateM.Result.ok.injEq] at ran
        exact ran.2
      subst same
      exact ⟨_, _, .snoc .refl (.reachedLimit looping (by omega))⟩
  | succ remaining ih =>
      simp only [onGameFrameFrom, EStateM.run_bind, run_tryDequeue] at ran
      cases result : system.extension.store.eventQueue.tryDequeue with
      | mk message eventQueue =>
          simp only [result] at ran
          cases message with
          | none =>
              simp only [EStateM.run_pure, EStateM.Result.ok.injEq] at ran
              obtain ⟨_, rfl⟩ := ran
              exact ⟨_, _, .snoc .refl (.foundEmpty looping (by omega) result)⟩
          | some message =>
              have first : Step platform sourceMod system { system with
                  extension := system.extension.dequeued eventQueue
                  phase := .dispatching dequeuedBefore iteration message } :=
                .dequeue looping (by omega) result
              have inFlight := first.consistent consistent
              cases held : message.args with
              | none =>
                  simp only [held] at ran
                  exact ⟨_, _, .snoc (.snoc .refl first) (.missing rfl held ran)⟩
              | some args =>
                  simp only [held, EStateM.run_bind] at ran
                  cases dispatched : (dispatchMessage platform sourceMod message args).run
                    (system.extension.dequeued eventQueue) with
                  | error fault after => simp [dispatched] at ran
                  | ok _ after =>
                      simp only [dispatched] at ran
                      have second : Step platform sourceMod { system with
                          extension := system.extension.dequeued eventQueue
                          phase := .dispatching dequeuedBefore iteration message } { system with
                          extension := after
                          phase := .looping dequeuedBefore (iteration + 1) } :=
                        .dispatch rfl held dispatched
                      have next := second.consistent inFlight
                      obtain ⟨path, frame, run⟩ := ih next rfl (by omega) ran
                        (by rw [next.unchanged])
                      exact ⟨_, frame, .cons first (.cons second run)⟩

theorem run_onGameFrameFrom_empty (remaining : Nat) {extension : Extension}
    (empty : extension.store.eventQueue.contents = []) :
    (onGameFrameFrom platform sourceMod remaining).run extension = .ok () extension := by
  have result : extension.store.eventQueue.tryDequeue = (none, extension.store.eventQueue) := by
    simp [ConcurrentQueue.tryDequeue, empty]
  cases remaining with
  | zero => rfl
  | succ remaining =>
      simp only [onGameFrameFrom, EStateM.run_bind, run_tryDequeue, result]
      rfl

theorem dispatched_of_onGameFrame {extension after : Extension} {message : EventMessage}
    (sound : extension.Sound none) (queued : extension.store.eventQueue.contents = [message])
    (limit : 0 < extension.config.frameLimit platform)
    (ran : (onGameFrame platform sourceMod).run extension = .ok () after) :
    ∃ args eventQueue, Dispatched sourceMod message args (extension.dequeued eventQueue) after := by
  obtain ⟨remaining, succ⟩ := Nat.exists_eq_succ_of_ne_zero (Nat.ne_of_gt limit)
  rw [run_onGameFrame, succ] at ran
  cases result : extension.store.eventQueue.tryDequeue with
  | mk first eventQueue =>
      have dequeued : first = some message ∧ eventQueue.contents = [] := by
        simp only [ConcurrentQueue.tryDequeue, queued, Prod.mk.injEq] at result
        exact ⟨result.1.symm, by rw [← result.2]⟩
      obtain ⟨rfl, empty⟩ := dequeued
      obtain ⟨soundAfter, complete⟩ := sound.dequeued result
      obtain ⟨args, held⟩ := Option.isSome_iff_exists.mp complete
      rw [held] at soundAfter
      refine ⟨args, eventQueue, ?_⟩
      simp only [onGameFrameFrom, EStateM.run_bind, run_tryDequeue, result, held] at ran
      rcases run_dispatchMessage platform sourceMod message soundAfter with
        ⟨middle, dispatchRan, _, dispatched⟩ | ⟨_, defect, middle, crashed⟩
      · rw [dispatchRan] at ran
        have still : middle.store.eventQueue.contents = [] := by
          rw [dispatched.eventQueue]
          exact empty
        simp only [run_onGameFrameFrom_empty remaining still, EStateM.Result.ok.injEq,
          true_and] at ran
        exact ran ▸ dispatched
      · rw [crashed] at ran
        simp at ran

theorem run_of_onGameFrame {extension : Extension}
    (consistent : system.Consistent platform config) (outside : system.phase = .outside)
    (ran : (onGameFrame platform sourceMod).run system.extension = .ok () extension) :
    ∃ path frame, Run (Step platform sourceMod) system path
      { extension, phase := .outside, frames := system.frames ++ [frame] } := by
  have entered : Step platform sourceMod system
      { system with phase := .looping system.extension.dequeuedCount 0 } := .enterFrame outside
  rw [run_onGameFrame, consistent.unchanged] at ran
  obtain ⟨path, frame, run⟩ := run_of_onGameFrameFrom (entered.consistent consistent) rfl
    (Nat.zero_add _) ran
  exact ⟨_, frame, .cons entered run⟩

theorem run_of_natives (platform : Platform) (sourceMod : SourceMod)
    (history : List (Plugin × ListenerNative)) {system : System}
    (outside : system.phase = .outside) :
    ∃ path, Run (Step platform sourceMod) system path
      { system with extension := system.extension.afterNatives history } := by
  induction history generalizing system with
  | nil => exact ⟨[], .refl⟩
  | cons call rest ih =>
      have stepped : Step platform sourceMod system
          { system with extension := call.2.run call.1 system.extension } :=
        .native call.1 call.2 outside
      have still : ({ system with
          extension := call.2.run call.1 system.extension } : System).phase = .outside := outside
      obtain ⟨path, run⟩ := ih still
      exact ⟨_, .cons stepped run⟩

theorem run_of_event (history : List (Plugin × ListenerNative)) (serverConfig : Option Config)
    {json : Json} (wellFormed : json.WellFormed) {extension : Extension}
    (ran : (onGameFrame platform sourceMod).run ((Extension.afterNatives history
      { config }).arrive platform serverConfig json) = .ok () extension) :
    ∃ path frame, Run (Step platform sourceMod) (System.start config) path
      { extension, phase := .outside, frames := [frame] } := by
  have outside : (System.start config).phase = .outside := rfl
  obtain ⟨registered, run⟩ := run_of_natives platform sourceMod history outside
  have arrived := run.snoc (.arrive serverConfig json wellFormed)
  obtain ⟨path, frame, framed⟩ := run_of_onGameFrame (consistent_of_run arrived) rfl ran
  exact ⟨_, frame, arrived.append framed⟩

theorem run_to_dispatch (platform : Platform) (sourceMod : SourceMod)
    (history : List (Plugin × ListenerNative)) (serverConfig : Option Config) {json : Json}
    (wellFormed : json.WellFormed) {message : EventMessage} {eventQueue : ConcurrentQueue}
    (queued : ((Extension.afterNatives history { config }).arrive platform serverConfig
      json).store.eventQueue.tryDequeue = (some message, eventQueue))
    (limit : 0 < config.frameLimit platform) :
    ∃ path dequeuedBefore, Run (Step platform sourceMod) (System.start config) path
      { extension := ((Extension.afterNatives history { config }).arrive platform serverConfig
          json).dequeued eventQueue
        phase := .dispatching dequeuedBefore 0 message } := by
  have outside : (System.start config).phase = .outside := rfl
  obtain ⟨registered, run⟩ := run_of_natives platform sourceMod history outside
  have arrived := run.snoc (.arrive serverConfig json wellFormed)
  have unchanged := (consistent_of_run arrived).unchanged
  have entered := arrived.snoc (.enterFrame rfl)
  exact ⟨_, _, entered.snoc (.dequeue rfl (unchanged.symm ▸ limit) queued)⟩

end

def eventSample : Json := .object [(text "args", .object []), (text "event", .string (text "a"))]

def deletingPlugins : SourceMod := .simple fun _ => [.deleteHandle]

end SocketEvents
