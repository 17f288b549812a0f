import SocketEvents.PayloadIntegrity
import SocketEvents.ResponseEncoding
import SocketEvents.ServerThread

/-!
The websocket server beside the game thread: what one session publishes does not depend on how
the frames fall between its messages, and nothing is published but what its client sent.
-/

namespace SocketEvents

open Execution Transition Mailbox WebsocketServer

inductive WebsocketPlace
  | accepting
  | serving (answered : Nat)
  | finished (answered : Nat)

structure WebsocketThread where
  place : WebsocketPlace := .accepting
  running : Bool := true
  responses : List ServerResponse := []

def WebsocketThread.session (config : Config) (thread : WebsocketThread) (store : EventStore) :
    WebsocketSession where
  server := { running := thread.running, config := some config, store }
  responses := thread.responses

def WebsocketSession.thread (place : WebsocketPlace) (session : WebsocketSession) :
    WebsocketThread where
  place := place
  running := session.server.running
  responses := session.responses

section
variable (platform : Platform) (parse : CString → Except Exception Json)
  (asBuffer : ServerResponse → Except Exception CString) (config : Config)
  (client : WebsocketClient)

def placeAfter (answered : Nat) :
    EStateM.Result (Fault Exception Defect) WebsocketSession Bool → Option WebsocketPlace
  | .ok true _ => some (.serving (answered + 1))
  | .ok false _ => some (.finished (answered + 1))
  | .error (.thrown exception) _ =>
      if exception.isStd then some (.finished (answered + 1)) else none
  | .error (.undefined _) _ => none

/-- What the thread does in one go: it accepts the client, or takes one of its frames, or finds
the connection closed. -/
inductive WebsocketActs (state : WebsocketThread × EventStore) :
    WebsocketThread × EventStore → Prop
  | accept : state.1.place = .accepting → client.acceptThrows = false →
      client.handshakeThrows = false →
      WebsocketActs state ({ state.1 with place := .serving 0 }, state.2)
  | refuse : state.1.place = .accepting →
      client.acceptThrows = true ∨ client.handshakeThrows = true →
      WebsocketActs state ({ state.1 with place := .finished 0 }, state.2)
  | answer {answered : Nat} {frame : WebsocketFrame} {place : WebsocketPlace}
      {session : WebsocketSession} : state.1.place = .serving answered →
      client.frames[answered]? = some frame →
      resultState ((answerFrame platform parse asBuffer frame).run
        (state.1.session config state.2)) = session →
      placeAfter answered ((answerFrame platform parse asBuffer frame).run
        (state.1.session config state.2)) = some place →
      WebsocketActs state (session.thread place, session.server.store)
  | closes {answered : Nat} : state.1.place = .serving answered →
      client.frames[answered]? = none →
      WebsocketActs state ({ state.1 with place := .finished answered }, state.2)

def SentBy (serverConfig : Option Config) (json : Json) : Prop :=
  serverConfig = some config ∧
    ∃ frame ∈ client.frames, frame.isText = true ∧ parse frame.bytes = .ok json

end

section
variable {platform : Platform} {parse : CString → Except Exception Json}
  {asBuffer : ServerResponse → Except Exception CString} {config : Config}
  {client : WebsocketClient}

theorem authenticate_blind (tokens : List CString) (json : Json) :
    Blind (authenticate tokens json) := by
  unfold authenticate
  split
  · exact .pure true
  · split
    · exact .bind (.liftThrow _) fun token => .pure _
    · exact .pure false

theorem parseMessage_blind (serverConfig : Option Config) (json : Json) :
    Blind (parseMessageAndEnqueue platform serverConfig json) := by
  have reads : Blind (initialised serverConfig : Exec Exception Defect EventStore Config) := by
    cases serverConfig with
    | none => exact .undefined _
    | some config => exact .pure config
  refine .bind reads fun config => .bind (authenticate_blind _ _) fun authenticated => ?_
  split
  · exact .pure _
  · split
    · exact .bind (.liftThrow _) fun name => .bind (.liftFault _) fun args =>
        .bind (.modify _) fun _ => .pure _
    · exact .pure _

/-- The call leaves the store alone, and does not look at it. -/
def Aside {α : Type} (config : Config) (call : Exec Exception Defect WebsocketSession α) : Prop :=
  ∀ thread : WebsocketThread, ∃ (outcome : Except (Fault Exception Defect) α)
    (later : WebsocketThread), ∀ store, call.run (thread.session config store) =
      inState outcome (later.session config store)

theorem Aside.pure {α : Type} (value : α) :
    Aside config (Pure.pure value : Exec Exception Defect WebsocketSession α) :=
  fun thread => ⟨.ok value, thread, fun _ => rfl⟩

theorem Aside.bind {α β : Type} {call : Exec Exception Defect WebsocketSession α}
    {next : α → Exec Exception Defect WebsocketSession β} (first : Aside config call)
    (second : ∀ value, Aside config (next value)) : Aside config (call >>= next) := by
  intro thread
  obtain ⟨outcome, later, ran⟩ := first thread
  cases outcome with
  | ok value =>
      obtain ⟨outcome', later', ran'⟩ := second value later
      refine ⟨outcome', later', fun store => ?_⟩
      rw [EStateM.run_bind, ran store]
      exact ran' store
  | error fault =>
      refine ⟨.error fault, later, fun store => ?_⟩
      rw [EStateM.run_bind, ran store]
      rfl

theorem write_aside (frame : WebsocketFrame) (response : ServerResponse) :
    Aside config (write asBuffer frame response) := by
  refine .bind (fun thread => ?_) fun _ thread => ?_
  · cases encoded : asBuffer response with
    | ok bytes => exact ⟨.ok bytes, thread, fun _ => rfl⟩
    | error exception => exact ⟨.error (.thrown exception), thread, fun _ => rfl⟩
  · cases frame.writeThrows with
    | true => exact ⟨.error (.thrown .systemError), thread, fun _ => rfl⟩
    | false =>
        exact ⟨.ok (), { thread with responses := thread.responses ++ [response] }, fun _ => rfl⟩

theorem halt_aside : Aside config (modify fun session : WebsocketSession =>
    { session with server := { session.server with running := false } }) :=
  fun thread => ⟨.ok (), { thread with running := false }, fun _ => rfl⟩

theorem replyTo_aside (frame : WebsocketFrame) (status : MessageParseStatus) :
    Aside config (replyTo asBuffer frame status) := by
  unfold replyTo
  split
  · exact .bind (write_aside frame _) fun _ => .bind halt_aside fun _ => .pure false
  · exact .bind (write_aside frame _) fun _ => .pure true

theorem run_answerFrame_parsed {frame : WebsocketFrame} {json : Json} (isText : frame.isText = true)
    (room : frame.room = true) (parsed : parse frame.bytes = .ok json) (thread : WebsocketThread)
    (store : EventStore) :
    (answerFrame platform parse asBuffer frame).run (thread.session config store) =
      match (parseMessageAndEnqueue platform (some config) json).run store with
      | .error fault after => .error fault (thread.session config after)
      | .ok status after => (replyTo asBuffer frame status).run (thread.session config after) := by
  simp only [answerFrame, isText, if_true, terminate, room, pure_bind, parsed, EStateM.run_bind,
    run_liftThrow_ok, EStateM.run_get, run_onSessionStore, WebsocketThread.session]
  cases (parseMessageAndEnqueue platform (some config) json).run store with
  | error fault after => rfl
  | ok status after => rfl

theorem answerFrame_alike (platform : Platform)
    (asBuffer : ServerResponse → Except Exception CString) (config : Config)
    (wellFormed : ParsesWellFormed parse) {frame : WebsocketFrame} (member : frame ∈ client.frames)
    (thread : WebsocketThread) :
    ∃ (outcome : Except (Fault Exception Defect) Bool) (later : WebsocketThread)
      (change : EventStore → EventStore), Arrival platform (SentBy parse config client) change ∧
      ∀ store, (answerFrame platform parse asBuffer frame).run (thread.session config store) =
        inState outcome (later.session config (change store)) := by
  cases isText : frame.isText with
  | false =>
      have replies : Aside config (answerFrame platform parse asBuffer frame) := by
        simp only [answerFrame, isText, Bool.false_eq_true, if_false]
        exact .bind (write_aside frame _) fun _ => .pure true
      obtain ⟨outcome, later, ran⟩ := replies thread
      exact ⟨outcome, later, id, .silent, ran⟩
  | true =>
      cases room : frame.room with
      | false =>
          exact ⟨.error (.undefined .arrayOverrun), thread, id, .silent,
            fun store => by simp [answerFrame, isText, terminate, room, inState]⟩
      | true =>
          cases parsed : parse frame.bytes with
          | error exception =>
              exact ⟨.error (.thrown exception), thread, id, .silent,
                fun store => by simp [answerFrame, isText, terminate, room, parsed, inState]⟩
          | ok json =>
              have blind : Blind (parseMessageAndEnqueue platform (some config) json) :=
                parseMessage_blind (some config) json
              obtain ⟨verdict, change, ran⟩ := blind
              have arrival : Arrival platform (SentBy parse config client) change := by
                have same : change = fun store =>
                    resultState ((parseMessageAndEnqueue platform (some config) json).run
                      store) := by
                  funext store
                  rw [ran store]
                  cases verdict <;> rfl
                rw [same]
                exact .message (some config) json ⟨rfl, frame, member, isText, parsed⟩
                  (wellFormed _ _ parsed)
              have handled : ∀ store, (answerFrame platform parse asBuffer frame).run
                  (thread.session config store) = _ :=
                run_answerFrame_parsed isText room parsed thread
              cases verdict with
              | error fault =>
                  refine ⟨.error fault, thread, change, arrival, fun store => ?_⟩
                  rw [handled store, ran store]
                  rfl
              | ok status =>
                  have replies : Aside config (replyTo asBuffer frame status) :=
                    replyTo_aside frame status
                  obtain ⟨outcome, later, replied⟩ := replies thread
                  refine ⟨outcome, later, change, arrival, fun store => ?_⟩
                  rw [handled store, ran store]
                  exact replied (change store)

theorem inState_thread {α : Type} (place : WebsocketPlace)
    (outcome : Except (Fault Exception Defect) α) (later : WebsocketThread) (store : EventStore) :
    (resultState (inState outcome (later.session config store))).thread place =
      { later with place } ∧
    (resultState (inState outcome (later.session config store))).server.store = store := by
  cases outcome <;> exact ⟨rfl, rfl⟩

theorem placeAfter_alike (answered : Nat) (outcome : Except (Fault Exception Defect) Bool)
    (first second : WebsocketSession) :
    placeAfter answered (inState outcome first) = placeAfter answered (inState outcome second) := by
  rcases outcome with (_ | _) | continues
  · rfl
  · rfl
  · cases continues <;> rfl

theorem websocket_writesOnly (wellFormed : ParsesWellFormed parse) :
    WritesOnly platform (SentBy parse config client)
      (WebsocketActs platform parse asBuffer config client) := by
  intro before after acted
  cases acted with
  | accept accepting accepts shakes =>
      exact ⟨id, .silent, rfl, fun store => .accept accepting accepts shakes⟩
  | refuse accepting throws =>
      exact ⟨id, .silent, rfl, fun store => .refuse accepting throws⟩
  | @answer answered frame place session serving read ran next =>
      obtain ⟨outcome, later, change, arrival, alike⟩ :=
        answerFrame_alike platform asBuffer config wellFormed (List.mem_of_getElem? read) before.1
      have lands : ∀ store, WebsocketActs platform parse asBuffer config client (before.1, store)
          ({ later with place }, change store) := by
        intro store
        have continues := next
        rw [alike before.2, placeAfter_alike answered outcome _
          (later.session config (change store)), ← alike store] at continues
        have moved : WebsocketActs platform parse asBuffer config client (before.1, store) _ :=
          .answer serving read rfl continues
        rw [alike store, (inState_thread place outcome later _).1,
          (inState_thread place outcome later _).2] at moved
        exact moved
      subst ran
      rw [alike before.2, (inState_thread place outcome later _).1,
        (inState_thread place outcome later _).2]
      exact ⟨change, arrival, rfl, lands⟩
  | closes serving ended => exact ⟨id, .silent, rfl, fun store => .closes serving ended⟩

/-! The thread on its own is `ServerRun` -/

structure AtMostOne (state : WebsocketThread × EventStore) : Prop where
  silent : state.1.responses = []
  unserved : (∀ answered, state.1.place ≠ .finished answered) → state.2.eventQueue.enqueued = []
  bound : state.2.eventQueue.enqueued.length ≤ 1

theorem atMostOne_step (wellFormed : ParsesWellFormed parse)
    {before after : WebsocketThread × EventStore}
    (acted : WebsocketActs platform parse ServerResponse.asBuffer config client before after)
    (most : AtMostOne before) : AtMostOne after := by
  obtain ⟨silent, unserved, bound⟩ := most
  cases acted with
  | accept accepting accepts shakes =>
      exact ⟨silent, fun _ => unserved (by simp [accepting]), bound⟩
  | refuse accepting throws => exact ⟨silent, fun busy => (busy 0 rfl).elim, bound⟩
  | @answer answered frame place session serving read ran next =>
      obtain ⟨outcome, later, change, arrival, alike⟩ :=
        answerFrame_alike platform ServerResponse.asBuffer config wellFormed
          (List.mem_of_getElem? read) before.1
      have unanswered : Unanswered (answerFrame platform parse ServerResponse.asBuffer frame) :=
        answerFrame_unanswered frame
      obtain ⟨fault, failed, threw, same⟩ := unanswered (before.1.session config before.2)
      have stored : session.server.store = change before.2 := by
        rw [← ran, alike before.2]
        exact (inState_thread place outcome later _).2
      have ended : place = .finished (answered + 1) := by
        rw [threw] at next
        rcases fault with exception | defect
        · simp only [placeAfter] at next
          split at next
          · exact (Option.some.inj next).symm
          · simp at next
        · simp [placeAfter] at next
      have replies : session.responses = [] := by
        rw [← ran, threw]
        exact same.trans silent
      have empty := unserved (by simp [serving])
      have one : session.server.store.eventQueue.enqueued.length ≤ 1 := by
        rw [stored]
        rcases arrival_sends arrival with unchanged | ⟨event, _, sent⟩
        · simp [unchanged, empty]
        · simp [sent, EventStore.send, ConcurrentQueue.enqueue, empty]
      exact ⟨replies, fun busy => (busy _ ended).elim, one⟩
  | closes serving ended => exact ⟨silent, fun busy => (busy _ rfl).elim, bound⟩

/-- With the encoding of the replies as it is, one load delivers at most one event, and its
client is never answered. -/
theorem websocket_single {sourceMod : SourceMod} (wellFormed : ParsesWellFormed parse)
    {path : List (WebsocketThread × System)} {thread : WebsocketThread} {system : System}
    (run : Run (HostedStep platform sourceMod
        (WebsocketActs platform parse ServerResponse.asBuffer config client))
      ({}, System.start config) path (thread, system)) :
    system.extension.outcomes.length ≤ 1 ∧ thread.responses = [] := by
  obtain ⟨_, store, ran, mail, shows, published⟩ :=
    hosted_alone (websocket_writesOnly wellFormed) run
  have started : AtMostOne (({} : WebsocketThread), ({} : EventStore)) :=
    ⟨rfl, fun _ => rfl, Nat.zero_le 1⟩
  have most := ran.invariant started fun held acted => atMostOne_step wellFormed acted held
  refine ⟨?_, most.silent⟩
  have settled := congrArg List.length shows.2.settled
  have all := congrArg List.length published
  simp only [List.length_map, EventStore.events, State.published, List.length_append]
    at settled all
  have bound := most.bound
  simp only at bound
  omega

end

def parseScore (message : CString) : Except Exception Json :=
  if message = text "score" then .ok scoreSample else .error .parseError

theorem parseScore_wellFormed : ParsesWellFormed parseScore := by
  intro bytes json parsed
  unfold parseScore at parsed
  split at parsed
  · obtain rfl := Except.ok.inj parsed
    decide
  · simp at parsed

def scoreFrame : WebsocketFrame where
  isText := true
  bytes := text "score"

def scoreClient : WebsocketClient where
  frames := [scoreFrame]

def scoreStore : EventStore :=
  resultState ((parseMessageAndEnqueue .x64 (some {}) scoreSample).run {})

theorem scoreClient_run {asBuffer : ServerResponse → Except Exception CString}
    {thread : WebsocketThread}
    (acted : WebsocketActs .x64 parseScore asBuffer {} scoreClient
      ({ place := .serving 0 }, {}) (thread, scoreStore)) :
    ∃ path system, Run (HostedStep .x64 keepingPlugins
        (WebsocketActs .x64 parseScore asBuffer {} scoreClient))
      ({}, System.start {}) path (thread, system) ∧
      system.extension.reads = [⟨⟨0, 0⟩, 1, .getInt, some (text "count"), some (3, [])⟩] ∧
      system.extension.outcomes = [({ name := text "a", args := some 0 }, .executed 0)] := by
  have limit : 0 < Config.frameLimit .x64 {} := by decide
  have start : Run (HostedStep .x64 keepingPlugins
      (WebsocketActs .x64 parseScore asBuffer {} scoreClient)) ({}, System.start {}) [] _ := .refl
  have listening := start.snoc (.step (.loop (.native 0 (.addEventListener (text "a") 0) rfl) rfl))
  have accepted := listening.snoc (.act (.mk (.accept rfl rfl rfl)))
  have answered := accepted.snoc (.act (.mk acted))
  have entered := answered.snoc (.step (.loop (.enterFrame rfl) rfl))
  have dequeued := entered.snoc (.step (.loop (.dequeue rfl limit rfl) rfl))
  have dispatched := dequeued.snoc (.step (.loop (.dispatch rfl rfl rfl) rfl))
  exact ⟨_, _, dispatched, rfl, rfl⟩

theorem websocket_single_score : ∃ system : System,
    system.extension.outcomes = [({ name := text "a", args := some 0 }, .executed 0)] ∧
      system.extension.outcomes.length ≤ 1 := by
  have acted : WebsocketActs .x64 parseScore ServerResponse.asBuffer {} scoreClient
      ({ place := .serving 0 }, {}) ({ place := .finished 1 }, scoreStore) :=
    @WebsocketActs.answer _ _ _ _ _ _ 0 scoreFrame (.finished 1)
      { server := { running := true, config := some {}, store := scoreStore } } rfl rfl rfl rfl
  obtain ⟨_, system, run, _, outcomes⟩ := scoreClient_run acted
  exact ⟨system, outcomes, (websocket_single parseScore_wellFormed run).1⟩

end SocketEvents
