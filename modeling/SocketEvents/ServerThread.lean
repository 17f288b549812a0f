import SocketEvents.HostMailbox

/-!
A server thread beside the game thread. All it does to what they share is to run
`ParseMessageAndEnqueue`, so the frames and the plugins never show in what it publishes, and
what the game thread delivers is what the thread publishes when it runs alone.
-/

namespace SocketEvents

open Execution Transition Mailbox

section
variable (platform : Platform) (arriving : Option Config → Json → Prop)

inductive Arrival : (EventStore → EventStore) → Prop
  | silent : Arrival id
  | message (serverConfig : Option Config) (json : Json) : arriving serverConfig json →
      json.WellFormed →
      Arrival fun store =>
        resultState ((parseMessageAndEnqueue platform serverConfig json).run store)

/-- What the thread does next, and what to the store, is the same whatever the store holds. -/
def WritesOnly {τ : Type} (acts : τ × EventStore → τ × EventStore → Prop) : Prop :=
  ∀ {before after}, acts before after → ∃ change, Arrival platform arriving change ∧
    after.2 = change before.2 ∧ ∀ store, acts (before.1, store) (after.1, change store)

end

inductive OnStore {τ : Type} (acts : τ × EventStore → τ × EventStore → Prop)
    (state : τ × System) : τ × System → Prop
  | mk {thread : τ} {store : EventStore} :
      acts (state.1, state.2.extension.store) (thread, store) →
      OnStore acts state
        (thread, { state.2 with extension := { state.2.extension with store } })

/-- The two threads, which take turns at any point: nothing arrives but from the server. -/
def HostedStep {τ : Type} (platform : Platform) (sourceMod : SourceMod)
    (acts : τ × EventStore → τ × EventStore → Prop) : τ × System → τ × System → Prop :=
  Beside (HostStep platform sourceMod fun _ _ => False) (OnStore acts)

def EventStore.events (store : EventStore) : List (Option (Event CString EventArgs)) :=
  store.eventQueue.enqueued.map (EventMessage.event store.objects)

section
variable {platform : Platform} {sourceMod : SourceMod} {arriving : Option Config → Json → Prop}
  {config : Config} {system after : System} {mail : Mail}

theorem HostStep.mono {fewer : Option Config → Json → Prop}
    (kinds : ∀ {serverConfig json}, fewer serverConfig json → arriving serverConfig json)
    (stepped : HostStep platform sourceMod fewer system after) :
    HostStep platform sourceMod arriving system after := by
  cases stepped with
  | arrive serverConfig json kind wellFormed =>
      exact .arrive serverConfig json (kinds kind) wellFormed
  | loop stepped silent => exact .loop stepped silent
  | call listener handle call outside ends => exact .call listener handle call outside ends
  | execute dispatching holds executing => exact .execute dispatching holds executing

section
variable {τ : Type} {acts : τ × EventStore → τ × EventStore → Prop}

theorem onStore_hostStep (writes : WritesOnly platform arriving acts) {before after : τ × System}
    (acted : OnStore acts before after) :
    after.2 = before.2 ∨ HostStep platform sourceMod arriving before.2 after.2 := by
  cases acted with
  | mk moved =>
      obtain ⟨change, arrival, same, _⟩ := writes moved
      cases arrival with
      | silent =>
          simp only [id_eq] at same
          subst same
          exact .inl rfl
      | message serverConfig json kind wellFormed =>
          subst same
          exact .inr (.arrive serverConfig json kind wellFormed)

theorem hostRun_of_hosted (writes : WritesOnly platform arriving acts) {start last : τ × System}
    {path : List (τ × System)} (run : Run (HostedStep platform sourceMod acts) start path last) :
    ∃ path', Run (HostStep platform sourceMod arriving) start.2 path' last.2 := by
  have simulates : Simulates (HostedStep platform sourceMod acts)
      (HostStep platform sourceMod arriving) fun state image => state.2 = image :=
    Beside.whole (fun stepped => stepped.mono False.elim) (onStore_hostStep writes)
  obtain ⟨path', image, ran, same⟩ := run.simulated simulates rfl
  exact ⟨path', same ▸ ran⟩

end

theorem arrival_sends {change : EventStore → EventStore}
    (arrival : Arrival platform arriving change) :
    change = id ∨ ∃ event : Event CString EventArgs, Published platform arriving event ∧
      change = EventStore.send event.name event.payload := by
  cases arrival with
  | silent => exact .inl rfl
  | message serverConfig json kind wellFormed =>
      cases serverConfig with
      | none => exact .inl rfl
      | some serverConfig =>
          by_cases admissible : Admissible platform serverConfig json
          · obtain ⟨authorised, ⟨name, named⟩, present, args, built⟩ := id admissible
            refine .inr ⟨⟨name, args⟩, ⟨serverConfig, json, kind, authorised, named, built⟩,
              funext fun store => ?_⟩
            rcases (parseMessage_outcome platform serverConfig json store).sent_iff with
              ⟨name', args', _, named', built', ran⟩ | ⟨refused, _⟩
            · rw [ran, Json.string.inj (named'.symm.trans named),
                Except.ok.inj (built'.symm.trans built)]
              rfl
            · exact (refused admissible).elim
          · refine .inl (funext fun store => ?_)
            rcases (parseMessage_outcome platform serverConfig json store).sent_iff with
              ⟨_, _, admitted, _⟩ | ⟨_, same⟩
            · exact (admissible admitted).elim
            · exact same

theorem events_send {store : EventStore} {events : List (Event CString EventArgs)}
    (complete : store.events = events.map some) (event : Event CString EventArgs) :
    (store.send event.name event.payload).events = (events ++ [event]).map some := by
  have older : store.eventQueue.enqueued.map
      (EventMessage.event (store.objects.allocate event.payload)) = store.events := by
    refine List.map_congr_left fun message member => ?_
    have shown : message.event store.objects ∈ events.map some :=
      complete ▸ List.mem_map_of_mem (f := EventMessage.event store.objects) member
    obtain ⟨other, _, same⟩ := List.mem_map.mp shown
    cases holds : message.args with
    | none => simp [EventMessage.event, holds]
    | some args =>
        have stored := (event_some holds same.symm).2
        simp only [EventMessage.event, holds, Option.bind_some, stored,
          Heap.load_allocate_old stored]
  have newest : EventMessage.event (store.objects.allocate event.payload)
      { name := event.name, args := some store.objects.next } = some event := by
    simp [EventMessage.event, Heap.load_allocate_new]
  have all : (store.send event.name event.payload).events = store.events ++ [some event] := by
    rw [← older, ← newest]
    simp only [EventStore.events, EventStore.send, ConcurrentQueue.enqueue, List.map_append,
      List.map_cons, List.map_nil]
  rw [all, complete, List.map_append, List.map_cons, List.map_nil]

/-- The messages that the store alone received are the events of the mailbox. -/
def Receives (platform : Platform) (config : Config) (system : System) (alone : EventStore) :
    Prop :=
  ∃ mail, Shows platform config system mail ∧ alone.events = mail.published.map some

theorem published_of_silent {path : List Mail} {mail' : Mail}
    (run : Run (Mailbox.Step (Published platform fun _ _ => False) (readOf platform)) mail path
      mail') : mail'.published = mail.published := by
  induction run with
  | refl => rfl
  | snoc _ stepped ih =>
      rcases stepped.published with kept | ⟨_, ⟨_, _, kind, _⟩, _⟩
      · exact kept.trans ih
      · exact kind.elim

theorem receives_silent {alone : EventStore}
    (stepped : HostStep platform sourceMod (fun _ _ => False) system after)
    (receives : Receives platform config system alone) :
    Receives platform config after alone := by
  obtain ⟨mail, shows, complete⟩ := receives
  obtain ⟨_, mail', ran, shows'⟩ :=
    host_simulates platform sourceMod (fun _ _ => False) config system after mail stepped shows
  exact ⟨mail', shows', by rw [published_of_silent ran, complete]⟩

theorem consistent_arrival {change : EventStore → EventStore}
    (arrival : Arrival platform arriving change) (consistent : system.Consistent platform config) :
    System.Consistent platform config { system with extension := { system.extension with
      store := change system.extension.store } } := by
  cases arrival with
  | silent => exact consistent
  | message serverConfig json _ wellFormed =>
      exact consistent_arrive consistent serverConfig wellFormed

theorem receives_arrival {alone : EventStore} {change : EventStore → EventStore}
    (arrival : Arrival platform arriving change)
    (receives : Receives platform config system alone) :
    Receives platform config { system with extension := { system.extension with
      store := change system.extension.store } } (change alone) := by
  obtain ⟨mail, ⟨consistent, mirrors⟩, complete⟩ := receives
  have consistent' := consistent_arrival arrival consistent
  rcases arrival_sends arrival with rfl | ⟨event, _, rfl⟩
  · exact ⟨mail, ⟨consistent, mirrors⟩, complete⟩
  · have sound := consistent.sound
    rw [Phase.inHand_eq] at sound
    have published : State.published { mail with waiting := mail.waiting ++ [event] } =
        mail.published ++ [event] := by simp [State.published]
    exact ⟨_, ⟨consistent', mirrors_sent sound mirrors event⟩,
      published ▸ events_send complete event⟩

/-- Every run of the two threads is one of the server alone, which publishes the same events,
and these are the events that are waiting, in hand, or settled. -/
theorem hosted_alone {τ : Type} {acts : τ × EventStore → τ × EventStore → Prop} {thread : τ}
    {last : τ × System} {path : List (τ × System)} (writes : WritesOnly platform arriving acts)
    (run : Run (HostedStep platform sourceMod acts) (thread, System.start config) path last) :
    ∃ path' store, Run acts (thread, {}) path' (last.1, store) ∧
      Receives platform config last.2 store := by
  have simulates : Simulates (HostedStep platform sourceMod acts) acts fun state image =>
      state.1 = image.1 ∧ Receives platform config state.2 image.2 := by
    refine Beside.alone receives_silent ?_
    rintro before after alone ⟨moved⟩ receives
    obtain ⟨change, arrival, same, anywhere⟩ := writes moved
    simp only at same
    subst same
    exact ⟨change alone, anywhere alone, receives_arrival arrival receives⟩
  have initial : (thread, System.start config).1 = (thread, ({} : EventStore)).1 ∧
      Receives platform config (System.start config) {} :=
    ⟨rfl, {}, shows_start platform config, rfl⟩
  obtain ⟨path', ⟨thread', store⟩, ran, same, receives⟩ := run.simulated simulates initial
  simp only at same
  subst same
  exact ⟨path', store, ran, receives⟩

end

end SocketEvents
