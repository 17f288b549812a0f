import SocketEvents.HostRuns
import SocketEvents.Mailbox

/-!
The host as a mailbox. Messages hold addresses in a heap that frames and plugins free, and
natives reach the trees through handles; seen from outside, each event is a name with a tree
that never changes, and a native asks a question of it.
-/

namespace SocketEvents

open Execution Transition Mailbox

abbrev Query := EventArgsNative × Option CString

abbrev Mail := Mailbox.State CString EventArgs Handle Query (Cell × CString)

def readOf (platform : Platform) (tree : EventArgs) (query : Query) : Option (Cell × CString) :=
  query.2.bind fun key => query.1.answer platform tree key

/-- A message of this kind was let in, and its name and arguments are the event's. -/
def Published (platform : Platform) (arriving : Option Config → Json → Prop)
    (event : Event CString EventArgs) : Prop :=
  ∃ serverConfig json, arriving (some serverConfig) json ∧
    Authorised serverConfig.tokens json ∧ json.member (text "event") = .string event.name ∧
    ofJson platform (json.member (text "args")) = .ok event.payload

def EventMessage.event (objects : Heap EventArgs) (message : EventMessage) :
    Option (Event CString EventArgs) :=
  message.args.bind fun args => (objects.load args).map fun tree => ⟨message.name, tree⟩

def Outcome.executes : Outcome → Bool
  | .executed _ => true
  | .handleError _ => false
  | .discarded => false
  | .missingArguments => false

def Phase.held : Phase → Option EventMessage
  | .dispatching _ _ message => some message
  | _ => none

structure Mirrors (held : Option EventMessage) (extension : Extension) (mail : Mail) : Prop where
  waiting : extension.store.eventQueue.contents.map
    (EventMessage.event extension.store.objects) = mail.waiting.map some
  inHand : held.map (EventMessage.event extension.store.objects) = mail.inHand.map some
  opened : extension.handles.map (fun entry => (entry.1, extension.store.objects.load entry.2)) =
    mail.opened.map fun entry => (entry.1, some entry.2.payload)
  settled : extension.outcomes.map (fun entry => (entry.1.name, entry.2.executes)) =
    mail.settled.map fun entry => (entry.1.name, entry.2.isSome)
  answers : extension.reads.map (fun read => (read.handle, (read.native, read.key), read.result)) =
    mail.answers

section
variable {held : Option EventMessage} {extension : Extension} {mail : Mail} {handle : Handle}
  {args : ArgsRef}

theorem Mirrors.find (mirrors : Mirrors held extension mail) (handle : Handle) :
    (AssocMap.find handle extension.handles).map extension.store.objects.load =
      (AssocMap.find handle mail.opened).map fun event => some event.payload := by
  rw [← AssocMap.find_map, mirrors.opened]
  exact AssocMap.find_map handle (fun event : Event _ _ => some event.payload) mail.opened

theorem Mirrors.find_none (mirrors : Mirrors held extension mail)
    (invalid : AssocMap.find handle extension.handles = none) :
    AssocMap.find handle mail.opened = none := by
  have same := mirrors.find handle
  rw [invalid] at same
  exact Option.map_eq_none_iff.mp same.symm

theorem Mirrors.find_some (mirrors : Mirrors held extension mail) {tree : EventArgs}
    (valid : AssocMap.find handle extension.handles = some args)
    (stored : extension.store.objects.load args = some tree) :
    ∃ event, AssocMap.find handle mail.opened = some event ∧ event.payload = tree := by
  have same := mirrors.find handle
  rw [valid, Option.map_some, stored] at same
  obtain ⟨event, found, payload⟩ := Option.map_eq_some_iff.mp same.symm
  exact ⟨event, found, Option.some.inj payload⟩

theorem Mirrors.reload (mirrors : Mirrors held extension mail) {objects : Heap EventArgs}
    (same : ∀ args ∈ extension.owners (held.bind EventMessage.args),
      objects.load args = extension.store.objects.load args) :
    Mirrors held (extension.destroyed objects) mail := by
  have event : ∀ message : EventMessage,
      (∀ args, message.args = some args → args ∈ extension.owners (held.bind EventMessage.args)) →
      message.event objects = message.event extension.store.objects := by
    intro message owned
    cases args : message.args with
    | none => simp [EventMessage.event, args]
    | some address =>
        simp only [EventMessage.event, args, Option.bind_some]
        rw [same address (owned address args)]
  refine ⟨?_, ?_, ?_, mirrors.settled, mirrors.answers⟩
  · rw [← mirrors.waiting]
    refine List.map_congr_left fun message member => event message fun address args => ?_
    refine List.mem_append_left _ (List.mem_append_left _ ?_)
    exact List.mem_filterMap.mpr ⟨message, member, args⟩
  · rw [← mirrors.inHand]
    cases held with
    | none => rfl
    | some message =>
        simp only [Option.map_some, Option.some.injEq]
        refine event message fun address args => ?_
        refine List.mem_append_left _ (List.mem_append_right _ ?_)
        simp [args]
  · rw [← mirrors.opened]
    refine List.map_congr_left fun entry member => ?_
    have owned : entry.2 ∈ extension.owners (held.bind EventMessage.args) :=
      List.mem_append_right _ (List.mem_map_of_mem (f := Prod.snd) member)
    simp only [Extension.destroyed]
    rw [same entry.2 owned]

theorem Mirrors.event {message : EventMessage} (mirrors : Mirrors (some message) extension mail) :
    ∃ event, mail.inHand = some event ∧
      message.event extension.store.objects = some event := by
  obtain ⟨event, inHand, shown⟩ := Option.map_eq_some_iff.mp mirrors.inHand.symm
  exact ⟨event, inHand, shown.symm⟩

theorem event_some {message : EventMessage} {event : Event CString EventArgs}
    {objects : Heap EventArgs} (holds : message.args = some args)
    (shown : message.event objects = some event) :
    event.name = message.name ∧ objects.load args = some event.payload := by
  simp only [EventMessage.event, holds, Option.bind_some] at shown
  obtain ⟨tree, stored, rfl⟩ := Option.map_eq_some_iff.mp shown
  exact ⟨rfl, stored⟩

end

section
variable {platform : Platform} {sourceMod : SourceMod} {arriving : Option Config → Json → Prop}
  {extension after : Extension} {mail : Mail} {message : EventMessage} {args : ArgsRef}

def Reaches (platform : Platform) (arriving : Option Config → Json → Prop) (mail : Mail)
    (held : Option EventMessage) (extension : Extension) : Prop :=
  ∃ path mail', Run (Mailbox.Step (Published platform arriving) (readOf platform)) mail path mail' ∧
    Mirrors held extension mail'

theorem reaches_next {held : Option EventMessage} {mail' : Mail}
    (stepped : Mailbox.Step (Published platform arriving) (readOf platform) mail mail')
    (mirrors : Mirrors held after mail') : Reaches platform arriving mail held after :=
  ⟨_, mail', .snoc .refl stepped, mirrors⟩

def Tracks (platform : Platform) (arriving : Option Config → Json → Prop) (mail : Mail)
    (extension : Extension) : Prop :=
  extension.Sound none ∧ Reaches platform arriving mail none extension

theorem mirrors_read (mirrors : Mirrors none extension mail) (record : ReadRecord) :
    Mirrors none (extension.afterRead record)
      { mail with answers :=
          mail.answers ++ [(record.handle, (record.native, record.key), record.result)] } := by
  refine ⟨mirrors.waiting, mirrors.inHand, mirrors.opened, mirrors.settled, ?_⟩
  simp [Extension.afterRead, mirrors.answers]

theorem mirrors_deleted {handle : Handle} {objects : Heap EventArgs}
    (sound : extension.Sound none) (mirrors : Mirrors none extension mail)
    (valid : AssocMap.find handle extension.handles = some args)
    (freed : extension.store.objects.free args = some objects) :
    Mirrors none ((extension.closed handle).destroyed objects)
      { mail with opened := AssocMap.erase handle mail.opened } := by
  have closed : Mirrors none (extension.closed handle)
      { mail with opened := AssocMap.erase handle mail.opened } := by
    refine ⟨mirrors.waiting, mirrors.inHand, ?_, mirrors.settled,
      mirrors.answers⟩
    have opened := congrArg (List.filter (·.1 ≠ handle)) mirrors.opened
    simp only [List.filter_map] at opened
    simp only [Extension.closed, AssocMap.erase_eq_filter]
    exact opened
  refine closed.reload ?_
  intro other owned
  obtain ⟨_, _, _, loads⟩ := Heap.free_spec freed
  have different := ((sound.mem_owners_closed valid other).mp owned).2
  rw [loads other, if_neg different]
  rfl

theorem preserves_runCall_tracks (listener : Listener) (handle : Handle) (call : PluginCall) :
    Preserves (Tracks platform arriving mail) (runCall platform listener handle call) := by
  rintro extension ⟨sound, path, image, run, mirrors⟩
  cases call with
  | read native key =>
      simp only [runCall]
      cases valid : AssocMap.find handle extension.handles with
      | none =>
          rw [run_readNative_invalid platform listener native key valid]
          exact ⟨sound.congr rfl rfl rfl rfl, _, _,
            run.snoc (.refuse handle (native, key) (mirrors.find_none valid)),
            mirrors_read mirrors _⟩
      | some args =>
          obtain ⟨tree, stored⟩ := Heap.live_iff_load.mp (sound.live_of_handle valid)
          obtain ⟨event, found, payload⟩ := mirrors.find_some valid stored
          cases key with
          | none =>
              rw [run_readNative_null platform listener native valid]
              exact ⟨sound, _, _, run, mirrors⟩
          | some key =>
              rcases native.readsIf platform (sound.regular args tree stored) key with
                ⟨_, result, returned⟩ | ⟨_, defect, crashed⟩
              · rw [run_readNative valid stored returned]
                have evaluated : readOf platform event.payload (native, some key) =
                    some result := by
                  simp [readOf, EventArgsNative.answer, payload, returned]
                exact ⟨sound.congr rfl rfl rfl rfl, _, _,
                  run.snoc (.answer handle event (native, some key) result found evaluated),
                  mirrors_read mirrors _⟩
              · rw [run_readNative_crash valid stored crashed]
                exact ⟨sound, _, _, run, mirrors⟩
  | deleteHandle =>
      simp only [runCall]
      cases valid : AssocMap.find handle extension.handles with
      | none =>
          rw [run_deleteHandle_invalid valid]
          exact ⟨sound, _, _, run, mirrors⟩
      | some args =>
          obtain ⟨objects, freed⟩ := Heap.free_isSome (sound.live_of_handle valid)
          rw [run_deleteHandle valid freed]
          exact ⟨sound.deleted valid freed, _, _, run.snoc (.close handle),
            mirrors_deleted sound mirrors valid freed⟩
  | listeners native =>
      refine ⟨sound.listeners listener.plugin native, _, _, run, ?_⟩
      obtain ⟨_, _, same⟩ := native.run_frame listener.plugin extension
      have ran : resultState ((runCall platform listener handle (.listeners native)).run
          extension) = native.run listener.plugin extension := rfl
      rw [ran, same]
      exact ⟨mirrors.waiting, mirrors.inHand, mirrors.opened, mirrors.settled,
        mirrors.answers⟩

theorem tracks_call {listener : Listener} {handle : Handle} {call : PluginCall}
    (tracks : Tracks platform arriving mail extension)
    (ends : Ends ((runCall platform listener handle call).run extension) after) :
    Tracks platform arriving mail after := by
  have preserved : Preserves (Tracks platform arriving mail)
      (runCall platform listener handle call) := preserves_runCall_tracks listener handle call
  have tracked := preserved extension tracks
  rwa [ends.state] at tracked

theorem tracks_serving {handle : Handle} {serving next : Serving}
    (stepped : ServingStep platform handle serving next)
    (tracks : Tracks platform arriving mail serving.extension) :
    Tracks platform arriving mail next.extension := by
  cases stepped with
  | enter ready first =>
      obtain ⟨sound, path, image, run, mirrors⟩ := tracks
      exact ⟨sound.calling handle [_], path, image, run, mirrors.waiting, mirrors.inHand,
        mirrors.opened, mirrors.settled, mirrors.answers⟩
  | native other call running ran => exact tracks_call tracks (.of_ok ran)
  | fail other call running ran => exact tracks_call tracks (.of_thrown ran)
  | leave running => exact tracks

theorem tracks_servingRun {handle : Handle} {serving last : Serving} {path : List Serving}
    (run : Run (ServingStep platform handle) serving path last)
    (tracks : Tracks platform arriving mail serving.extension) :
    Tracks platform arriving mail last.extension := by
  induction run with
  | refl => exact tracks
  | snoc _ stepped ih => exact tracks_serving stepped ih

/-! What a dispatch does to the mailbox -/

theorem mirrors_dropped {objects : Heap EventArgs} (sound : extension.Sound (some args))
    (holds : message.args = some args) (mirrors : Mirrors (some message) extension mail)
    (freed : extension.store.objects.free args = some objects) {refused : Extension}
    {outcome : Outcome} (store : refused.store = extension.store)
    (handles : refused.handles = extension.handles)
    (reads : refused.reads = extension.reads)
    (outcomes : refused.outcomes = extension.outcomes ++ [(message, outcome)])
    (unexecuted : outcome.executes = false) :
    Reaches platform arriving mail none (refused.destroyed objects) := by
  obtain ⟨event, inHand, shown⟩ := mirrors.event
  obtain ⟨named, _⟩ := event_some holds shown
  obtain ⟨_, _, _, loads⟩ := Heap.free_spec freed
  have before : Mirrors none refused
      { mail with inHand := none, settled := mail.settled ++ [(event, none)] } := by
    refine ⟨?_, rfl, ?_, ?_, ?_⟩
    · rw [store]
      exact mirrors.waiting
    · rw [store, handles]
      exact mirrors.opened
    · simp [outcomes, mirrors.settled, unexecuted, named]
    · rw [reads]
      exact mirrors.answers
  have owned : ∀ other ∈ refused.owners none, other ≠ args := by
    intro other member same
    have split : (extension.owners (some args)).Perm (args :: refused.owners none) := by
      simp only [Extension.owners, store, handles, Option.toList_none, Option.toList_some,
        List.append_nil, List.append_assoc]
      exact List.perm_middle
    exact (List.nodup_cons.mp (split.nodup_iff.mp sound.distinct)).1 (same ▸ member)
  refine reaches_next (.drop event inHand) (before.reload ?_)
  intro other member
  rw [loads other, if_neg (owned other member), store]

theorem mirrors_opened {handle : Handle} (holds : message.args = some args)
    (mirrors : Mirrors (some message) extension mail) (forward : ForwardRef)
    (fresh : AssocMap.find handle extension.handles = none) :
    Reaches platform arriving mail none (extension.opened message forward handle args) := by
  obtain ⟨event, inHand, shown⟩ := mirrors.event
  obtain ⟨named, stored⟩ := event_some holds shown
  refine reaches_next (.handOut event handle inHand (mirrors.find_none fresh)) ?_
  refine ⟨mirrors.waiting, rfl, ?_, ?_, mirrors.answers⟩
  · simp [Extension.opened, mirrors.opened, stored]
  · simp only [Extension.opened, List.map_append, List.map_cons, List.map_nil, mirrors.settled,
      named]
    rfl

theorem executing_reaches {served : Extension} (sound : extension.Sound (some args))
    (holds : message.args = some args) (mirrors : Mirrors (some message) extension mail)
    (executing : Executing platform sourceMod message args extension { extension := served }) :
    Reaches platform arriving mail none (sourceMod.reported message extension served) := by
  obtain ⟨forward, _, _, _, run⟩ := executing
  have fresh := sourceMod.nextHandle_fresh extension
  have opened : Tracks platform arriving mail
      (extension.opened message forward (sourceMod.nextHandle extension) args) :=
    ⟨sound.opened message forward fresh, mirrors_opened holds mirrors forward fresh⟩
  obtain ⟨_, path, final, ran, shows⟩ := tracks_servingRun run opened
  refine ⟨path, final, ran, ?_⟩
  rcases sourceMod.reported_cases message extension served with same | same
  · rw [same]
    exact shows
  · rw [same]
    exact ⟨shows.waiting, shows.inHand, shows.opened, shows.settled, shows.answers⟩

theorem dispatch_reaches (sound : extension.Sound (some args)) (holds : message.args = some args)
    (mirrors : Mirrors (some message) extension mail)
    (ran : (dispatchMessage platform sourceMod message args).run extension = .ok () after) :
    Reaches platform arriving mail none after := by
  obtain ⟨objects, freed⟩ := Heap.free_isSome sound.live_inHand
  cases found : AssocMap.find message.name extension.eventForwards with
  | none =>
      rw [run_dispatch_discarded platform sourceMod found freed] at ran
      obtain rfl := (EStateM.Result.ok.inj ran).2
      exact mirrors_dropped sound holds mirrors freed rfl rfl rfl rfl rfl
  | some forward =>
      by_cases created : sourceMod.nextError extension = 0
      · obtain ⟨served, executing, same⟩ := executing_of_dispatch sound.forwards found created ran
        rw [same]
        exact executing_reaches sound holds mirrors executing
      · rw [run_dispatch_handleError platform found created freed] at ran
        obtain rfl := (EStateM.Result.ok.inj ran).2
        exact mirrors_dropped sound holds mirrors freed rfl rfl rfl rfl rfl

theorem arrive_published {serverConfig : Option Config} {json : Json}
    (kind : arriving serverConfig json) (extension : Extension) :
    extension.arrive platform serverConfig json = extension ∨
      ∃ event, Published platform arriving event ∧
        extension.arrive platform serverConfig json =
          { extension with store := extension.store.send event.name event.payload } := by
  cases serverConfig with
  | none => exact .inl rfl
  | some serverConfig =>
      have outcome := parseMessage_outcome platform serverConfig json extension.store
      unfold Extension.arrive
      rcases outcome.sent_iff with ⟨name, args, admissible, named, built, ran⟩ | ⟨_, same⟩
      · refine .inr ⟨⟨name, args⟩, ⟨serverConfig, json, kind, admissible.authorised, named, built⟩,
          ?_⟩
        rw [ran]
        rfl
      · rw [same]
        exact .inl rfl

theorem mirrors_sent {held : Option EventMessage} (sound : extension.Sound (held.bind (·.args)))
    (mirrors : Mirrors held extension mail) (event : Event CString EventArgs) :
    Mirrors held { extension with store := extension.store.send event.name event.payload }
      { mail with waiting := mail.waiting ++ [event] } := by
  have kept : ∀ address ∈ extension.owners (held.bind (·.args)),
      (extension.store.objects.allocate event.payload).load address =
        extension.store.objects.load address := by
    intro address owner
    obtain ⟨tree, stored⟩ := Heap.live_iff_load.mp ((sound.owned address).mpr owner)
    rw [stored]
    exact Heap.load_allocate_old stored
  have reloaded := mirrors.reload kept
  refine ⟨?_, reloaded.inHand, reloaded.opened, reloaded.settled, reloaded.answers⟩
  have newest : EventMessage.event (extension.store.objects.allocate event.payload)
      { name := event.name, args := some extension.store.objects.next } = some event := by
    simp [EventMessage.event, Heap.load_allocate_new]
  have older := reloaded.waiting
  simp only [Extension.destroyed] at older
  simp only [EventStore.send, ConcurrentQueue.enqueue, List.map_append, List.map_cons,
    List.map_nil, older, newest]

theorem Phase.inHand_eq (phase : Phase) : phase.inHand = phase.held.bind (·.args) := by
  cases phase <;> rfl

theorem mirrors_dequeued {eventQueue : ConcurrentQueue} (mirrors : Mirrors none extension mail)
    (result : extension.store.eventQueue.tryDequeue = (some message, eventQueue)) :
    ∃ mail', Mailbox.Step (Published platform arriving) (readOf platform) mail mail' ∧
      Mirrors (some message) (extension.dequeued eventQueue) mail' := by
  obtain ⟨contents, _, _⟩ := ConcurrentQueue.tryDequeue_some result
  have free : mail.inHand = none := Option.map_eq_none_iff.mp mirrors.inHand.symm
  have waiting := mirrors.waiting
  rw [contents, List.map_cons] at waiting
  cases first : mail.waiting with
  | nil => simp [first] at waiting
  | cons event rest =>
      simp only [first, List.map_cons, List.cons.injEq] at waiting
      refine ⟨_, .take event rest free first, waiting.2, ?_, mirrors.opened, mirrors.settled,
        mirrors.answers⟩
      simp only [Option.map_some, Option.some.injEq]
      exact waiting.1

def Shows (platform : Platform) (config : Config) (system : System) (mail : Mail) : Prop :=
  system.Consistent platform config ∧ Mirrors system.phase.held system.extension mail

variable {config : Config} {system next : System}

theorem loop_simulated (stepped : Step platform sourceMod system next)
    (silent : next.extension.store.eventQueue.enqueued =
      system.extension.store.eventQueue.enqueued)
    (shows : Shows platform config system mail) :
    Reaches platform arriving mail next.phase.held next.extension := by
  obtain ⟨consistent, mirrors⟩ := shows
  cases stepped with
  | arrive serverConfig json wellFormed =>
      rcases Extension.arrive_cases platform serverConfig wellFormed system.extension with same |
        ⟨name, args, regular, same⟩
      · rw [same]
        exact ⟨[], mail, .refl, mirrors⟩
      · simp [same, EventStore.send, ConcurrentQueue.enqueue] at silent
  | native plugin native outside =>
      obtain ⟨_, _, same⟩ := native.run_frame plugin system.extension
      rw [same]
      exact ⟨[], mail, .refl, mirrors.waiting, mirrors.inHand, mirrors.opened, mirrors.settled,
        mirrors.answers⟩
  | enterFrame outside =>
      rw [outside] at mirrors
      exact ⟨[], mail, .refl, mirrors⟩
  | dequeue looping below result =>
      rw [looping] at mirrors
      obtain ⟨mail', taken, held⟩ := mirrors_dequeued mirrors result
      exact reaches_next taken held
  | foundEmpty looping below result =>
      obtain ⟨_, same⟩ := ConcurrentQueue.tryDequeue_none result
      subst same
      rw [looping] at mirrors
      exact ⟨[], mail, .refl, mirrors⟩
  | reachedLimit looping limit =>
      rw [looping] at mirrors
      exact ⟨[], mail, .refl, mirrors⟩
  | missing dispatching absent ran =>
      -- no message without arguments is ever dequeued
      have counts := consistent.counts
      rw [dispatching] at counts
      obtain ⟨_, _, complete⟩ := counts
      simp [absent] at complete
  | dispatch dispatching holds ran =>
      have sound := consistent.sound
      rw [dispatching] at sound mirrors
      simp only [Phase.inHand, holds] at sound
      exact dispatch_reaches sound holds mirrors ran

theorem host_simulates (platform : Platform) (sourceMod : SourceMod)
    (arriving : Option Config → Json → Prop) (config : Config) :
    Simulates (HostStep platform sourceMod arriving)
      (Mailbox.Step (Published platform arriving) (readOf platform)) (Shows platform config) := by
  intro system next mail stepped shows
  have consistent := stepped.consistent shows.1
  suffices reaches : Reaches platform arriving mail next.phase.held next.extension by
    obtain ⟨path, mail', run, mirrors⟩ := reaches
    exact ⟨path, mail', run, consistent, mirrors⟩
  cases stepped with
  | arrive serverConfig json kind wellFormed =>
      rcases arrive_published kind system.extension with same | ⟨event, published, same⟩
      · rw [same]
        exact ⟨[], mail, .refl, shows.2⟩
      · rw [same]
        have sound := shows.1.sound
        rw [Phase.inHand_eq] at sound
        exact reaches_next (.publish event published) (mirrors_sent sound shows.2 event)
  | loop stepped silent => exact loop_simulated stepped silent shows
  | call listener handle call outside ends =>
      have sound := shows.1.sound
      have mirrors := shows.2
      rw [outside] at sound mirrors
      simp only [outside]
      exact (tracks_call ⟨sound, [], mail, .refl, mirrors⟩ ends).2
  | execute dispatching holds executing =>
      have sound := shows.1.sound
      have mirrors := shows.2
      rw [dispatching] at sound mirrors
      simp only [Phase.inHand, holds] at sound
      exact executing_reaches sound holds mirrors executing

theorem shows_start (platform : Platform) (config : Config) :
    Shows platform config (System.start config) {} :=
  ⟨consistent_start platform config, rfl, rfl, rfl, rfl, rfl⟩

theorem mailbox_of_hostRun {path : List System}
    (run : Run (HostStep platform sourceMod arriving) (System.start config) path system) :
    ∃ path' mail, Run (Mailbox.Step (Published platform arriving) (readOf platform)) {} path' mail ∧
      Mirrors system.phase.held system.extension mail := by
  obtain ⟨path', mail, ran, shows⟩ :=
    run.simulated (host_simulates platform sourceMod arriving config) (shows_start platform config)
  exact ⟨path', mail, ran, shows.2⟩

end

theorem mailbox_of_keepingPlugins : ∃ (path : List Mail) (mail : Mail),
    Run (Mailbox.Step (Published .x64 fun _ _ => True) (readOf .x64)) {} path mail ∧
      mail.answers = [(1, (.getInt, some (text "count")), some (3, [])),
        (1, (.getInt, some (text "count")), none)] := by
  obtain ⟨_, _, _, system, _, _, _, run, reads⟩ := keepingPlugins_run
  obtain ⟨path, mail, ran, mirrors⟩ := mailbox_of_hostRun run
  exact ⟨path, mail, ran, by rw [← mirrors.answers, reads]; rfl⟩

end SocketEvents
