import SocketEvents.EventLoop

/-!
Which functions an event calls, after any history of the listener natives.
-/

namespace SocketEvents

open Execution Transition

abbrev ListenerCall := Plugin × ListenerNative

namespace Listener

def addition (name : CString) (listener : Listener) : ListenerCall :=
  (listener.plugin, .addEventListener name listener.function)

def removal (name : CString) (listener : Listener) : ListenerCall :=
  (listener.plugin, .removeEventListener name listener.function)

def removalOfAll (name : CString) (listener : Listener) : ListenerCall :=
  (listener.plugin, .removeAllEventListeners name)

end Listener

/-- Added and not removed since, by either of the two natives that remove listeners. -/
def Registered (history : List ListenerCall) (name : CString) (listener : Listener) : Prop :=
  History.Since (listener.addition name)
    (fun call => call = listener.removal name ∨ call = listener.removalOfAll name) history

def Listed (history : List ListenerCall) (name : CString) (listener : Listener) : Prop :=
  History.Since (listener.addition name) (· = listener.removal name) history

/-- Whatever a plugin has listed when it calls `RemoveAllEventListeners`, it adds again or
removes later. -/
def RemovalsRepeated (history : List ListenerCall) (name : CString) : Prop :=
  ∀ before after listener, history = before ++ listener.removalOfAll name :: after →
    Listed before name listener →
      ∃ call ∈ after, call = listener.addition name ∨ call = listener.removal name

theorem listed_iff_registered_iff (history : List ListenerCall) (name : CString) :
    (∀ listener, Listed history name listener ↔ Registered history name listener) ↔
      RemovalsRepeated history name := by
  constructor
  · intro agree before after listener split listed
    -- otherwise the forward still lists what the plugin has removed
    by_contra untouched
    have kept : ∀ call ∈ after, call ≠ listener.addition name ∧ call ≠ listener.removal name := by
      intro call member
      constructor
      · intro same
        exact untouched ⟨call, member, .inl same⟩
      · intro same
        exact untouched ⟨call, member, .inr same⟩
    have still : Listed history name listener := by
      rw [split]
      refine History.Since.append listed ?_
      intro call member
      rcases List.mem_cons.mp member with same | later
      · simp [same, Listener.removalOfAll, Listener.removal]
      · exact (kept call later).2
    refine History.not_since_of_gap split (.inr rfl) ?_ (fun call member => (kept call member).1)
      ((agree listener).mp still)
    simp [Listener.removalOfAll, Listener.addition]
  · intro repeated listener
    constructor
    · intro listed
      -- the last removal of all would be a gap that nothing closes
      by_contra lost
      obtain ⟨before, call, after, split, rfl, held, untouched⟩ :=
        History.gap_of_since listed lost
      obtain ⟨later, member, same | same⟩ := repeated before after listener split held
      · exact (untouched later member).1 same
      · exact (untouched later member).2 same
    · intro registered
      exact registered.mono fun call removed => .inl removed

namespace Extension

section
variable {extension : Extension}

theorem afterNatives_append (history : List ListenerCall) (call : ListenerCall) :
    extension.afterNatives (history ++ [call]) =
      call.2.run call.1 (extension.afterNatives history) := by
  simp [afterNatives, List.foldl_append]

theorem afterNatives_frame (history : List ListenerCall) (extension : Extension) :
    ∃ eventForwards forwards,
      extension.afterNatives history = { extension with eventForwards, forwards } := by
  induction history using List.reverseRecOn with
  | nil => exact ⟨_, _, rfl⟩
  | append_singleton earlier call ih =>
      obtain ⟨_, _, same⟩ := ih
      rw [afterNatives_append, same]
      obtain ⟨eventForwards, forwards, ran⟩ := call.2.run_frame call.1 { extension with
        eventForwards := _, forwards := _ }
      exact ⟨eventForwards, forwards, ran⟩

theorem forwardsValid_afterNatives (valid : extension.ForwardsValid)
    (history : List ListenerCall) : (extension.afterNatives history).ForwardsValid := by
  induction history using List.reverseRecOn with
  | nil => exact valid
  | append_singleton earlier call ih =>
      rw [afterNatives_append]
      exact call.2.forwardsValid_run ih call.1

end

def functionsOf (name : CString) (extension : Extension) : List Listener :=
  (extension.forwardOf name).functions

end Extension

theorem Forward.mem_addFunction {added listener : Listener} {forward : Forward} :
    listener ∈ (forward.addFunction added).functions ↔
      listener = added ∨ listener ∈ forward.functions := by
  unfold Forward.addFunction
  split
  · rename_i present
    constructor
    · exact .inr
    · rintro (same | member)
      · exact same ▸ present
      · exact member
  · simp [or_comm]

theorem Forward.mem_removeFunction {removed listener : Listener} {forward : Forward} :
    listener ∈ (forward.removeFunction removed).functions ↔
      listener ∈ forward.functions ∧ listener ≠ removed := by
  simp [Forward.removeFunction]

theorem mem_functions_change (plugin : Plugin) (native : ListenerNative) (forward : Forward)
    (listener : Listener) :
    listener ∈ (native.change plugin forward).functions ↔
      (plugin, native) = listener.addition native.name ∨
        (listener ∈ forward.functions ∧ (plugin, native) ≠ listener.removal native.name) := by
  obtain ⟨owner, function⟩ := listener
  cases native with
  | addEventListener name added =>
      simp [ListenerNative.change, Forward.mem_addFunction, Listener.addition,
        Listener.removal, ListenerNative.name, eq_comm]
  | removeEventListener name removed =>
      simp [ListenerNative.change, Forward.mem_removeFunction, Listener.addition,
        Listener.removal, ListenerNative.name, eq_comm]
  | removeAllEventListeners name =>
      simp [ListenerNative.change, Listener.addition, Listener.removal]

theorem mem_functionsOf_iff (config : Config) (history : List ListenerCall) (name : CString)
    (listener : Listener) :
    listener ∈ (Extension.afterNatives history { config }).functionsOf name ↔
      Listed history name listener := by
  have start : ({ config } : Extension).ForwardsValid :=
    (consistent_start .x64 config).sound.forwards
  induction history using List.reverseRecOn with
  | nil =>
      have empty : (Extension.afterNatives [] { config }).functionsOf name = [] := rfl
      rw [empty]
      exact ⟨fun member => by simp at member, fun listed => (History.not_since_nil listed).elim⟩
  | append_singleton earlier call ih =>
      have valid := Extension.forwardsValid_afterNatives start earlier
      have held : History.Since (listener.addition name) (· = listener.removal name) earlier ↔
          listener ∈ ((Extension.afterNatives earlier { config }).forwardOf name).functions :=
        Iff.symm ih
      rw [Listed, History.since_append_singleton, held, Extension.functionsOf,
        Extension.afterNatives_append, call.2.forwardOf_run valid]
      by_cases same : name = call.2.name
      · subst same
        rw [if_pos rfl, mem_functions_change]
      · have notAdded : call ≠ listener.addition name := by
          rintro rfl
          exact same rfl
        have notRemoved : call ≠ listener.removal name := by
          rintro rfl
          exact same rfl
        simp [same, notAdded, notRemoved]

structure RegistrySemantics (config : Config) (history : List ListenerCall) (name : CString)
    (executed : List Listener) : Prop where
  executed : ∀ listener, listener ∈ executed ↔ Registered history name listener
  others : ∀ before after (call : ListenerCall), history = before ++ call :: after →
    call.2.name ≠ name →
      (Extension.afterNatives (before ++ [call]) { config }).functionsOf name =
        (Extension.afterNatives before { config }).functionsOf name

section
variable {platform : Platform} {sourceMod : SourceMod} {config : Config}

theorem functionsOf_other (config : Config) (history : List ListenerCall) (call : ListenerCall)
    {name : CString} (different : call.2.name ≠ name) :
    (Extension.afterNatives (history ++ [call]) { config }).functionsOf name =
      (Extension.afterNatives history { config }).functionsOf name := by
  have start : ({ config } : Extension).ForwardsValid :=
    (consistent_start .x64 config).sound.forwards
  have valid := Extension.forwardsValid_afterNatives start history
  rw [Extension.functionsOf, Extension.afterNatives_append, call.2.forwardOf_run valid,
    if_neg different.symm, Extension.functionsOf]

theorem executed_iff_listed (history : List ListenerCall) (serverConfig : Option Config)
    {json : Json} {message : EventMessage} {after : Extension} (wellFormed : json.WellFormed)
    (queued : ((Extension.afterNatives history { config }).arrive platform serverConfig
      json).store.eventQueue.contents = [message])
    (limit : 0 < config.frameLimit platform) (created : sourceMod.createHandleError 0 = 0)
    (ran : (onGameFrame platform sourceMod).run ((Extension.afterNatives history
      { config }).arrive platform serverConfig json) = .ok () after) (listener : Listener) :
    listener ∈ after.calls.map Prod.snd ↔ Listed history message.name listener := by
  have outside : (System.start config).phase = .outside := rfl
  obtain ⟨path, registered⟩ := run_of_natives platform sourceMod history outside
  have consistent := consistent_of_run (registered.snoc (.arrive serverConfig json wellFormed))
  have sound : ((Extension.afterNatives history { config }).arrive platform serverConfig
      json).Sound none := consistent.sound
  have below : 0 < Config.frameLimit platform ((Extension.afterNatives history
      { config }).arrive platform serverConfig json).config := by
    have unchanged := consistent.unchanged
    exact unchanged.symm ▸ limit
  obtain ⟨args, eventQueue, dispatched⟩ := dispatched_of_onGameFrame sound queued below ran
  rw [← mem_functionsOf_iff config]
  have arrived := Extension.arrive_cases platform serverConfig wellFormed
    (Extension.afterNatives history { config })
  -- the message changes neither the bindings nor the forwards
  obtain ⟨eventForwards, forwards, frame⟩ := Extension.afterNatives_frame history { config }
  rw [frame] at arrived dispatched ⊢
  have kept : ∃ store, ({ config, eventForwards, forwards } : Extension).arrive platform
      serverConfig json = { config, eventForwards, forwards, store } := by
    rcases arrived with same | ⟨name, tree, _, same⟩
    · exact ⟨_, same⟩
    · exact ⟨_, same⟩
  obtain ⟨store, same⟩ := kept
  rw [same] at dispatched
  rw [dispatched.calls created]
  simp only [Extension.dequeued, List.nil_append, List.map_map, Function.comp_def, List.map_id']
  exact (sourceMod.callsEach _).mem_iff

theorem registrySemantics_iff (history : List ListenerCall) (serverConfig : Option Config)
    {json : Json} {message : EventMessage} {after : Extension} (wellFormed : json.WellFormed)
    (queued : ((Extension.afterNatives history { config }).arrive platform serverConfig
      json).store.eventQueue.contents = [message])
    (limit : 0 < config.frameLimit platform) (created : sourceMod.createHandleError 0 = 0)
    (ran : (onGameFrame platform sourceMod).run ((Extension.afterNatives history
      { config }).arrive platform serverConfig json) = .ok () after) :
    RegistrySemantics config history message.name (after.calls.map Prod.snd) ↔
      RemovalsRepeated history message.name := by
  have executed := executed_iff_listed history serverConfig wellFormed queued limit created ran
  rw [← listed_iff_registered_iff]
  constructor
  · intro semantics listener
    rw [← executed listener]
    exact semantics.executed listener
  · intro agree
    refine ⟨fun listener => (executed listener).trans (agree listener), ?_⟩
    intro earlier later call _ different
    exact functionsOf_other config earlier call different

end

theorem removedAll_executed : ¬ ∀ platform sourceMod config history serverConfig json message
    (after : Extension), json.WellFormed →
    ((Extension.afterNatives history { config }).arrive platform serverConfig
      json).store.eventQueue.contents = [message] → 0 < config.frameLimit platform →
    sourceMod.createHandleError 0 = 0 →
    (onGameFrame platform sourceMod).run ((Extension.afterNatives history
      { config }).arrive platform serverConfig json) = .ok () after →
    RegistrySemantics config history message.name (after.calls.map Prod.snd) := by
  intro agrees
  have limit : Config.frameLimit .x64 {} = 4 := by decide
  have framed : ∃ after, (onGameFrame .x64 deletingPlugins).run
      ((Extension.afterNatives [(0, .addEventListener (text "a") 0),
        (0, .removeAllEventListeners (text "a"))] { config := {} }).arrive .x64 (some {})
          eventSample) = .ok () after ∧
      after.calls = [(1, { plugin := 0, function := 0 })] := by
    rw [run_onGameFrame, show Extension.config _ = {} from rfl, limit]
    exact ⟨_, rfl, rfl⟩
  obtain ⟨after, ran, calls⟩ := framed
  have semantics := agrees .x64 deletingPlugins {} _ (some {}) eventSample
    { name := text "a", args := some 0 } after (by decide) rfl (by decide) rfl ran
  have registered : Registered _ (text "a") { plugin := 0, function := 0 } :=
    (semantics.executed { plugin := 0, function := 0 }).mp (by simp [calls])
  have split : ([(0, .addEventListener (text "a") 0), (0, .removeAllEventListeners (text "a"))] :
      List ListenerCall) =
    [(0, .addEventListener (text "a") 0)] ++ (0, .removeAllEventListeners (text "a")) :: [] := rfl
  exact History.not_since_of_gap split (.inr rfl) (by simp [Listener.addition]) (by simp) registered

def listenersSample : List ListenerCall :=
  [(0, .addEventListener (text "a") 0), (0, .removeAllEventListeners (text "a")),
    (1, .addEventListener (text "a") 0), (0, .addEventListener (text "a") 0)]

theorem listenersSample_repeated : RemovalsRepeated listenersSample (text "a") := by
  intro before after listener split listed
  rcases before with _ | ⟨first, _ | ⟨second, _ | ⟨third, _ | ⟨fourth, rest⟩⟩⟩⟩
  · simp [listenersSample, Listener.removalOfAll] at split
  · simp only [listenersSample, Listener.removalOfAll, List.cons_append, List.nil_append,
      List.cons.injEq, Prod.mk.injEq] at split
    obtain ⟨rfl, ⟨same, _⟩, rfl⟩ := split
    have added : ((0, .addEventListener (text "a") 0) : ListenerCall) =
        listener.addition (text "a") := by
      rcases History.since_append_singleton.mp (show History.Since _ _ ([] ++ [_]) from listed) with
        added | ⟨since, _⟩
      · exact added
      · exact (History.not_since_nil since).elim
    exact ⟨_, by simp, .inl added⟩
  · simp [listenersSample, Listener.removalOfAll] at split
  · simp [listenersSample, Listener.removalOfAll] at split
  · simp [listenersSample] at split

theorem registrySemantics_iff_again : ∃ after : Extension,
    after.calls = [(1, { plugin := 0, function := 0 }), (1, { plugin := 1, function := 0 })] ∧
      RegistrySemantics {} listenersSample (text "a") (after.calls.map Prod.snd) := by
  have limit : Config.frameLimit .x64 {} = 4 := by decide
  have framed : ∃ after, (onGameFrame .x64 deletingPlugins).run
      ((Extension.afterNatives listenersSample { config := {} }).arrive .x64 (some {})
        eventSample) = .ok () after ∧
      after.calls =
        [(1, { plugin := 0, function := 0 }), (1, { plugin := 1, function := 0 })] := by
    rw [run_onGameFrame, show Extension.config _ = {} from rfl, limit]
    exact ⟨_, rfl, rfl⟩
  obtain ⟨after, ran, calls⟩ := framed
  have queued : ((Extension.afterNatives listenersSample { config := {} }).arrive .x64 (some {})
      eventSample).store.eventQueue.contents = [{ name := text "a", args := some 0 }] := rfl
  exact ⟨after, calls, (registrySemantics_iff _ (some {}) (by decide) queued (by decide) rfl
    ran).mpr listenersSample_repeated⟩

end SocketEvents
