import SocketEvents.AcceptLoop
import SocketEvents.FrameFormat
import SocketEvents.Transition
import SocketEvents.WebsocketLifecycle

/-!
The TCP server under `Start`, `Stop` and its clients. `Start` opens the acceptor, and nothing ever
closes it.
-/

namespace SocketEvents

open Execution Transition

section
variable {Key : Type} (platform : Platform) (openSsl : OpenSsl Key)
  (parse : CString → Except Exception Json) (flag : Bool)

def TCPServer.Flagged (server : TCPServer Key) : Prop := server.running = flag

theorem preserves_socketWait (throws : Bool) :
    Preserves (TCPServer.Flagged flag)
      (socketWait throws : Exec Exception Defect (TCPServer Key) Unit) :=
  .of_state fun server => by cases throws <;> rfl

theorem preserves_allocateBuffer (connection : Connection) (capacity : Nat) :
    Preserves (TCPServer.Flagged flag)
      (allocateBuffer platform connection capacity : Exec Exception Defect (TCPServer Key) Unit) :=
  .of_state fun server => by
    rw [run_allocateBuffer]
    split
    · rfl
    · split <;> rfl

theorem preserves_readHeader (connection : Connection) :
    Preserves (TCPServer.Flagged flag)
      (readHeader connection : Exec Exception Defect (TCPServer Key) _) :=
  .guarded (.bind (.of_state fun _ => socketRead_state ..) fun _ => .pure _)
    (.bind (.pure _) fun _ => .pure _)

theorem preserves_onStore {α : Type} (call : Exec Exception Defect EventStore α) :
    Preserves (TCPServer.Flagged flag)
      (onStore call : Exec Exception Defect (TCPServer Key) α) := by
  intro server same
  simp only [onStore, EStateM.run]
  cases call server.store <;> exact same

theorem preserves_acceptBody (connection : Connection) (header : EventMessageHeader) :
    Preserves (TCPServer.Flagged flag) (acceptBody platform openSsl parse connection header) := by
  have reads : Preserves (TCPServer.Flagged flag)
      (readBody platform openSsl parse connection header) := by
    refine .bind (.of_state fun _ => socketRead_state ..) fun body =>
      .bind (.of_state fun server => verifySignature_state ..) fun accepted => ?_
    cases accepted with
    | false => exact .pure _
    | true =>
        exact .bind (.liftThrow _) fun _ => .bind (.of_state fun _ => rfl) fun _ =>
          .bind (preserves_onStore flag _) fun _ => .pure _
  unfold acceptBody
  split
  · split
    · exact .pure _
    · exact .bind (preserves_socketWait flag _) fun _ =>
        .bind (preserves_allocateBuffer platform flag _ _) fun _ => .guarded reads (.pure _)
  · exact .pure _

theorem preserves_serverRunOnce {holds : TCPServer Key → Prop} {connection : Connection}
    (opens : ∀ server socketOpen, holds server → holds { server with socketOpen })
    (handles : Preserves holds (acceptMessageHeaderAndBody platform openSsl parse connection)) :
    Preserves holds (serverRunOnce platform openSsl parse connection) := by
  have accepts : Preserves holds (acceptorAccept : Exec Exception Defect (TCPServer Key) Unit) := by
    refine .bind (.of_state fun _ => rfl) fun server => ?_
    split
    · exact .raise _
    · exact .modify fun server held => opens server true held
  exact .guarded (.bind accepts fun _ => .bind handles fun _ =>
    .modify fun server held => opens server false held) (.pure _)

theorem preserves_acceptMessage {connection : Connection} (unstopped : connection.stopped = false) :
    Preserves (TCPServer.Flagged flag)
      (acceptMessageHeaderAndBody platform openSsl parse connection) := by
  refine .bind (preserves_socketWait flag _) fun _ => .bind (preserves_readHeader flag connection)
    fun header => ?_
  cases header with
  | none => exact .pure _
  | some header =>
      refine .bind (.modify fun server same => ?_) fun _ => .bind (.of_state fun _ => rfl)
        fun server => ?_
      · simpa [unstopped] using same
      · split
        · exact preserves_acceptBody platform openSsl parse flag connection header
        · exact .pure _

end

/-- `looping` is at the test of `running`, `blocked` in `accept`. -/
inductive TCPServerThread
  | none
  | looping
  | blocked
  | finished
  | joined
  deriving DecidableEq

def TCPServerThread.unjoined : TCPServerThread → Bool
  | .none => false
  | .joined => false
  | _ => true

def TCPServerThread.executing (thread : TCPServerThread) : Prop :=
  thread = .looping ∨ thread = .blocked

theorem TCPServerThread.not_executing {thread : TCPServerThread}
    (joined : thread.unjoined = false) : ¬ thread.executing := by
  rintro (rfl | rfl) <;> simp [unjoined] at joined

inductive ListenOutcome
  | listens
  | openThrows
  | bindThrows
  deriving DecidableEq

/-- `joining` says that the game thread waits in `Stop`, and `stopped` that `Stop` was called
since the last `Start`. -/
structure TCPLifecycle (Key : Type) where
  server : TCPServer Key
  acceptorOpen : Bool := false
  thread : TCPServerThread := .none
  joining : Bool := false
  stopped : Bool := false
  fault : Option LifecycleFault := none

namespace TCPLifecycle

variable {Key : Type}

def start (outcome : ListenOutcome) (state : TCPLifecycle Key) : TCPLifecycle Key :=
  if state.server.running then { state with stopped := false }
  else
    let state := { state with server := state.server.start, stopped := false }
    if outcome = .openThrows then state
    else
      let state := { state with acceptorOpen := true }
      if outcome = .bindThrows then state
      else if state.thread.unjoined then { state with fault := some .threadReplaced }
      else { state with thread := .looping }

/-- `closes` says that `acceptor.cancel()` closes the acceptor. An `accept` that it ends is one
that fails. -/
def stop (closes : Bool) (state : TCPLifecycle Key) : TCPLifecycle Key :=
  let state := { state with
    server := state.server.stop, acceptorOpen := state.acceptorOpen && !closes, stopped := true }
  match state.thread with
  | .none => { state with fault := some .joinedMissing }
  | .joined => { state with fault := some .joinedTwice }
  | _ => { state with joining := true }

inductive Action
  | start (outcome : ListenOutcome)
  | stop (closes : Bool)
  | stopReturns
  | blocks
  | acceptFails
  | serves (connection : Connection)
  | leaves

section
variable (platform : Platform) (openSsl : OpenSsl Key) (parse : CString → Except Exception Json)

/-- A fault ends the process, and so does a client that `serverRunOnce` does not return from.
While the socket is open `accept` throws at once, and the loop goes round. -/
inductive Step (state : TCPLifecycle Key) : Action → TCPLifecycle Key → Prop
  | start (outcome : ListenOutcome) : state.fault = none → state.joining = false →
      Step state (.start outcome) (state.start outcome)
  | stop (closes : Bool) : state.fault = none → state.joining = false →
      Step state (.stop closes) (state.stop closes)
  | stopReturns : state.fault = none → state.joining = true → state.thread = .finished →
      Step state .stopReturns { state with thread := .joined, joining := false }
  | blocks : state.fault = none → state.thread = .looping → state.server.running = true →
      state.server.socketOpen = false → Step state .blocks { state with thread := .blocked }
  | acceptFails : state.fault = none → state.thread = .blocked →
      Step state .acceptFails { state with thread := .looping }
  | serves (connection : Connection) (after : TCPServer Key) : state.fault = none →
      state.thread = .blocked → connection.stopped = false →
      (serverRunOnce platform openSsl parse connection).run state.server = .ok () after →
      Step state (.serves connection) { state with server := after, thread := .looping }
  | leaves : state.fault = none → state.thread = .looping → state.server.running = false →
      Step state .leaves { state with thread := .finished }

end

structure Sound (state : TCPLifecycle Key) : Prop where
  runs : state.server.running = true → state.stopped = false → state.thread.executing
  joins : state.fault = none

/-- A start that does something is the first, and gets through. -/
def Permitted (state : TCPLifecycle Key) : Action → Prop
  | .start outcome => state.server.running = true ∨
      state.acceptorOpen = false ∧ outcome = .listens
  | .stop _ => state.thread.unjoined = true
  | _ => True

/-- What `boost::asio` documents: `open` fails on an acceptor that is open, and `cancel` does not
close it. -/
structure Documented (path : List (TCPLifecycle Key × Action)) : Prop where
  refuses : ∀ visited ∈ path, ∀ outcome, visited.2 = .start outcome →
    visited.1.server.running = false → visited.1.acceptorOpen = true → outcome = .openThrows
  keepsOpen : ∀ visited ∈ path, visited.2 ≠ .stop true

def Rests (state : TCPLifecycle Key) : Prop :=
  state.server.running = false → state.joining = false → state.thread.unjoined = false

structure Orderly (state : TCPLifecycle Key) : Prop where
  started : state.server.running = true → state.stopped = false ∧ state.thread.executing
  rests : state.Rests
  calm : state.fault = none

section
variable {platform : Platform} {openSsl : OpenSsl Key} {parse : CString → Except Exception Json}
  {state after : TCPLifecycle Key} {action : Action}

theorem Orderly.sound (orderly : Orderly state) : Sound state :=
  ⟨fun running _ => (orderly.started running).2, orderly.calm⟩

theorem orderly_construct (openSsl : OpenSsl Key) (config : Config) :
    Orderly { server := .construct openSsl config } :=
  ⟨by simp [TCPServer.construct], fun _ _ => rfl, rfl⟩

theorem start_running (outcome : ListenOutcome) (state : TCPLifecycle Key) :
    (state.start outcome).server.running = true := by
  cases running : state.server.running with
  | true => simp [TCPLifecycle.start, running]
  | false =>
      cases outcome <;> cases joined : state.thread.unjoined <;>
        simp [TCPLifecycle.start, running, joined, TCPServer.start]

theorem start_fails {outcome : ListenOutcome} (resting : state.server.running = false)
    (fails : outcome ≠ .listens) :
    (state.start outcome).stopped = false ∧ (state.start outcome).thread = state.thread := by
  cases outcome with
  | listens => exact (fails rfl).elim
  | openThrows => simp [TCPLifecycle.start, resting]
  | bindThrows => simp [TCPLifecycle.start, resting]

theorem stop_unjoined (closes : Bool) (unjoined : state.thread.unjoined = true) :
    state.stop closes = { state with
      server := state.server.stop, acceptorOpen := state.acceptorOpen && !closes,
      stopped := true, joining := true } := by
  cases thread : state.thread <;> simp_all [stop, TCPServerThread.unjoined]

theorem stop_joined (closes : Bool) (joined : state.thread.unjoined = false) :
    (state.stop closes).thread = state.thread := by
  cases thread : state.thread <;> simp_all [stop, TCPServerThread.unjoined]

theorem stop_faults (closes : Bool) (absent : ¬ state.thread.unjoined = true) :
    (state.stop closes).fault ≠ none := by
  cases thread : state.thread <;> simp_all [stop, TCPServerThread.unjoined]

theorem running_serves {connection : Connection} {server server' : TCPServer Key}
    (unstopped : connection.stopped = false)
    (ran : (serverRunOnce platform openSsl parse connection).run server = .ok () server') :
    server'.running = server.running := by
  have same := preserves_serverRunOnce platform openSsl parse (fun _ _ same => same)
    (preserves_acceptMessage platform openSsl parse server.running unstopped) server rfl
  rwa [ran] at same

/-- Only `Stop` lets the thread go, and it waits for it. -/
theorem rests_step (stepped : Step platform openSsl parse state action after)
    (rests : state.Rests) : after.Rests := by
  cases stepped with
  | start outcome _ _ =>
      intro down
      simp [start_running] at down
  | stop closes _ _ =>
      cases unjoined : state.thread.unjoined with
      | true =>
          rw [stop_unjoined closes unjoined]
          intro _ free
          simp at free
      | false =>
          intro _ _
          rw [stop_joined closes unjoined]
          exact unjoined
  | stopReturns _ _ _ => exact fun _ _ => rfl
  | blocks _ _ running _ =>
      intro down
      simp [running] at down
  | acceptFails _ blocked =>
      intro down free
      have joined := rests down free
      simp [blocked, TCPServerThread.unjoined] at joined
  | serves connection server _ blocked unstopped ran =>
      intro down free
      have joined := rests (running_serves unstopped ran ▸ down) free
      simp [blocked, TCPServerThread.unjoined] at joined
  | leaves _ looping halted =>
      intro _ free
      have joined := rests halted free
      simp [looping, TCPServerThread.unjoined] at joined

def GetsThrough (state : TCPLifecycle Key) : Action → Prop
  | .start outcome => state.server.running = true ∨ outcome = .listens
  | .stop _ => state.thread.unjoined = true
  | _ => True

theorem orderly_step (stepped : Step platform openSsl parse state action after)
    (orderly : Orderly state) (gets : state.GetsThrough action) : Orderly after := by
  have rests := rests_step stepped orderly.rests
  cases stepped with
  | start outcome calm free =>
      unfold TCPLifecycle.start at rests ⊢
      split
      · rename_i running
        exact ⟨fun _ => ⟨rfl, (orderly.started running).2⟩, orderly.rests, calm⟩
      · rename_i resting
        obtain rfl := gets.resolve_left resting
        have joined := orderly.rests (Bool.not_eq_true _ ▸ resting) free
        simp only [joined, Bool.false_eq_true, reduceCtorEq, if_false]
        exact ⟨fun _ => ⟨rfl, .inl rfl⟩, by simp [Rests, TCPServer.start], calm⟩
  | stop closes calm free =>
      rw [stop_unjoined closes gets] at rests ⊢
      exact ⟨by simp [TCPServer.stop], rests, calm⟩
  | stopReturns calm joining finished =>
      refine ⟨fun running => ?_, rests, calm⟩
      rcases (orderly.started running).2 with looping | blocked
      · simp [finished] at looping
      · simp [finished] at blocked
  | blocks calm looping running closed =>
      exact ⟨fun _ => ⟨(orderly.started running).1, .inr rfl⟩, rests, calm⟩
  | acceptFails calm blocked =>
      exact ⟨fun running => ⟨(orderly.started running).1, .inl rfl⟩, rests, calm⟩
  | serves connection server calm blocked unstopped ran =>
      refine ⟨fun running => ?_, rests, calm⟩
      exact ⟨(orderly.started (running_serves unstopped ran ▸ running)).1, .inl rfl⟩
  | leaves calm looping halted =>
      exact ⟨fun running => by simp [halted] at running, rests, calm⟩

theorem not_sound_step (stepped : Step platform openSsl parse state action after)
    (orderly : Orderly state) (refused : ¬ state.GetsThrough action) : ¬ Sound after := by
  intro sound
  cases stepped with
  | start outcome calm free =>
      simp only [GetsThrough, not_or, Bool.not_eq_true] at refused
      obtain ⟨resting, fails⟩ := refused
      have joined := orderly.rests resting free
      obtain ⟨unstopped, same⟩ := start_fails resting fails
      have executing := sound.runs (start_running outcome state) unstopped
      exact TCPServerThread.not_executing joined (same ▸ executing)
  | stop closes calm free => exact stop_faults closes refused sound.joins
  | _ => exact refused trivial

theorem Documented.permitted_iff {path : List (TCPLifecycle Key × Action)}
    (documented : Documented path) {visited : TCPLifecycle Key × Action}
    (member : visited ∈ path) :
    visited.1.Permitted visited.2 ↔ visited.1.GetsThrough visited.2 := by
  obtain ⟨state, action⟩ := visited
  cases action with
  | start outcome =>
      refine or_congr_right' fun resting => ⟨And.right, fun listens => ⟨?_, listens⟩⟩
      refine Bool.eq_false_iff.mpr fun opened => ?_
      have refused := documented.refuses _ member outcome rfl (Bool.eq_false_iff.mpr resting) opened
      simp [listens] at refused
  | _ => rfl

theorem starts_iff_permitted {config : Config} {path : List (TCPLifecycle Key × Action)}
    {last : TCPLifecycle Key}
    (trace : Trace (Step platform openSsl parse) { server := .construct openSsl config }
      path last) (documented : Documented path) :
    ((∀ visited ∈ path, Sound visited.1) ∧ Sound last) ↔
      ∀ visited ∈ path, visited.1.Permitted visited.2 := by
  have verdict : ((∀ visited ∈ path, Sound visited.1) ∧ Sound last) ↔
      ∀ visited ∈ path, visited.1.GetsThrough visited.2 :=
    trace.good_iff_permitted (orderly_construct openSsl config) Orderly.sound orderly_step
      not_sound_step
  rw [verdict]
  exact forall₂_congr fun visited member => (documented.permitted_iff member).symm

theorem start_acceptorOpen (outcome : ListenOutcome) (state : TCPLifecycle Key) :
    (state.start outcome).acceptorOpen = false ↔ state.acceptorOpen = false ∧
      (state.server.running = true ∨ outcome = .openThrows) := by
  unfold TCPLifecycle.start
  cases running : state.server.running <;> cases outcome <;>
    cases unjoined : state.thread.unjoined <;> simp [unjoined]

theorem acceptorOpen_step (stepped : Step platform openSsl parse state action after)
    (keepsOpen : action ≠ .stop true) :
    after.acceptorOpen = false ↔ state.acceptorOpen = false ∧
      ∀ outcome, action = .start outcome →
        state.server.running = true ∨ outcome = .openThrows := by
  cases stepped with
  | start outcome _ _ => simp [start_acceptorOpen]
  | stop closes _ _ =>
      have kept : closes = false := Bool.eq_false_iff.mpr fun same => keepsOpen (by rw [same])
      unfold TCPLifecycle.stop
      cases state.thread <;> simp [kept]
  | _ => simp

theorem acceptorOpen_trace {config : Config} {path : List (TCPLifecycle Key × Action)}
    {last : TCPLifecycle Key}
    (trace : Trace (Step platform openSsl parse) { server := .construct openSsl config }
      path last) (keepsOpen : ∀ visited ∈ path, visited.2 ≠ .stop true) :
    last.acceptorOpen = false ↔ ∀ visited ∈ path, ∀ outcome, visited.2 = .start outcome →
      visited.1.server.running = true ∨ outcome = .openThrows := by
  induction trace with
  | refl => simp
  | snoc _ stepped ih =>
      simp only [List.forall_mem_append, List.forall_mem_singleton] at keepsOpen
      rw [acceptorOpen_step stepped keepsOpen.2, ih keepsOpen.1, List.forall_mem_append,
        List.forall_mem_singleton]

theorem start_runs (resting : state.server.running = false)
    (joined : state.thread.unjoined = false) : (state.start .listens).thread = .looping := by
  simp [TCPLifecycle.start, resting, joined]

/-- A server that was stopped does not run after another `Start`, although its flag says so. -/
theorem restarts_iff {config : Config} {path front back : List (TCPLifecycle Key × Action)}
    {last before : TCPLifecycle Key} {outcome : ListenOutcome}
    (trace : Trace (Step platform openSsl parse) { server := .construct openSsl config }
      path last) (documented : Documented path)
    (cut : path = front ++ (before, .start outcome) :: back)
    (resting : before.server.running = false) :
    (before.start outcome).server.running = true ∧
      ((before.start outcome).thread.executing ↔ outcome = .listens ∧
        ∀ visited ∈ front, ∀ earlier, visited.2 = .start earlier →
          visited.1.server.running = true ∨ earlier = .openThrows) := by
  obtain ⟨next, reached, stepped, _⟩ := trace.split cut
  have rests : before.Rests := reached.invariant Rests (orderly_construct openSsl config).rests
    fun rests stepped => rests_step stepped rests
  have joined : before.thread.unjoined = false := by
    cases stepped with
    | start _ _ free => exact rests resting free
  have member : (before, .start outcome) ∈ path := by simp [cut]
  have keepsOpen : ∀ visited ∈ front, visited.2 ≠ .stop true :=
    fun visited inside => documented.keepsOpen visited (by simp [cut, inside])
  rw [← acceptorOpen_trace reached keepsOpen]
  refine ⟨start_running outcome before, ?_⟩
  by_cases listens : outcome = .listens
  · subst listens
    refine iff_of_true (.inl (start_runs resting joined)) ⟨rfl, ?_⟩
    refine Bool.eq_false_iff.mpr fun opened => ?_
    simpa using documented.refuses _ member .listens rfl resting opened
  · refine iff_of_false ?_ fun gets => listens gets.1
    rw [(start_fails resting listens).2]
    exact TCPServerThread.not_executing joined

end

section
variable {Key : Type} {platform : Platform} {openSsl : OpenSsl Key}
  {parse : CString → Except Exception Json}

end

def unstarted : TCPLifecycle Unit where
  server := .construct OpenSsl.rejecting {}

theorem start_unstarted (outcome : ListenOutcome) :
    Trace (Step .x86 OpenSsl.rejecting parseGreeting) unstarted [(unstarted, .start outcome)]
      (unstarted.start outcome) := by
  have constructed : Trace (Step .x86 OpenSsl.rejecting parseGreeting) unstarted [] unstarted :=
    .refl
  exact constructed.snoc (.start outcome rfl rfl)

theorem starts_iff_permitted_taken :
    ¬ ((∀ visited ∈ [(unstarted, Action.start .bindThrows)], Sound visited.1) ∧
      Sound (unstarted.start .bindThrows)) := by
  have documented : Documented [(unstarted, Action.start .bindThrows)] :=
    ⟨by simp [unstarted], by simp⟩
  rw [starts_iff_permitted (start_unstarted .bindThrows) documented]
  simp [Permitted, unstarted, TCPServer.construct]

def listening : TCPLifecycle Unit := { unstarted.start .listens with thread := .blocked }

def rested : TCPLifecycle Unit :=
  { (unstarted.start .listens).stop false with thread := .joined, joining := false }

theorem restarts_iff_rested : (rested.start .openThrows).server.running = true ∧
    ¬ (rested.start .openThrows).thread.executing := by
  have stopping := (start_unstarted .listens).snoc (.stop false rfl rfl)
  have finished := stopping.snoc (.leaves rfl rfl rfl)
  have joined : Trace (Step .x86 OpenSsl.rejecting parseGreeting) unstarted _ rested :=
    finished.snoc (.stopReturns rfl rfl rfl)
  have again := joined.snoc (.start .openThrows rfl rfl)
  obtain ⟨running, runs⟩ := restarts_iff again
    ⟨by simp [unstarted, rested, TCPLifecycle.start, TCPLifecycle.stop, TCPServer.construct,
      TCPServer.start, TCPServerThread.unjoined], by simp⟩ rfl rfl
  refine ⟨running, fun executing => ?_⟩
  have listens := (runs.mp executing).1
  simp at listens

end TCPLifecycle

end SocketEvents
