import SocketEvents.Transition
import SocketEvents.WebsocketServerCore

/-!
The websocket server under `Start`, `Stop` and the sessions of its clients: what the flag says,
and what became of the thread.
-/

namespace SocketEvents

open Execution
open Transition

namespace WebsocketServer

section
variable (platform : Platform) (parse : CString → Except Exception Json)
  (asBuffer : ServerResponse → Except Exception CString)

def Halted (session : WebsocketSession) : Prop := session.server.running = false

theorem preserves_onSessionStore {α : Type} (call : Exec Exception Defect EventStore α) :
    Preserves Halted (onSessionStore call) := by
  intro session halted
  simp only [onSessionStore, EStateM.run]
  cases call session.server.store <;> exact halted

theorem preserves_write (frame : WebsocketFrame) (response : ServerResponse) :
    Preserves Halted (write asBuffer frame response) := by
  refine .bind (.liftThrow _) fun _ => ?_
  cases frame.writeThrows with
  | true => exact .raise _
  | false => exact .modify fun _ halted => halted

theorem preserves_answerFrame (frame : WebsocketFrame) :
    Preserves Halted (answerFrame platform parse asBuffer frame) := by
  cases isText : frame.isText with
  | false =>
      simp only [answerFrame, isText, Bool.false_eq_true, if_false]
      exact .bind (preserves_write asBuffer frame _) fun _ => .pure _
  | true =>
      have terminates : Preserves Halted (terminate frame) := by
        cases room : frame.room with
        | true => simpa [terminate, room] using Preserves.pure _
        | false => simpa [terminate, room] using Preserves.undefined _
      simp only [answerFrame, isText, if_true]
      refine .bind terminates fun message => .bind (.liftThrow _) fun json =>
        .bind (.of_state fun _ => rfl) fun session =>
          .bind (preserves_onSessionStore _) fun status => ?_
      unfold replyTo
      split
      · exact .bind (preserves_write asBuffer frame _) fun _ =>
          .bind (.modify fun _ _ => rfl) fun _ => .pure _
      · exact .bind (preserves_write asBuffer frame _) fun _ => .pure _

theorem preserves_messageLoop (frames : List WebsocketFrame) :
    Preserves Halted (messageLoop platform parse asBuffer frames) := by
  induction frames with
  | nil => exact .raise _
  | cons frame rest ih =>
      refine .bind (preserves_answerFrame platform parse asBuffer frame) fun continues => ?_
      cases continues with
      | true => exact ih
      | false => exact .pure _

theorem preserves_serverRun (client : WebsocketClient) :
    Preserves Halted (serverRun platform parse asBuffer client) := by
  refine .guarded ?_ (.pure _)
  split
  · exact .raise _
  · split
    · exact .raise _
    · exact preserves_messageLoop platform parse asBuffer client.frames

end

end WebsocketServer

inductive ServerThread
  | none
  | accepting
  | serving (client : WebsocketClient)
  | finished
  | joined

def ServerThread.executing : ServerThread → Prop
  | .accepting => True
  | .serving _ => True
  | _ => False

def ServerThread.unjoined : ServerThread → Bool
  | .none => false
  | .joined => false
  | _ => true

inductive LifecycleFault
  | threadReplaced
  | joinedMissing
  | joinedTwice

/-- `joining` says that the game thread waits in `Stop`, and `stopped` that `Stop` was called
since the last `Start`. -/
structure Lifecycle where
  server : WebsocketServer
  thread : ServerThread := .none
  joining : Bool := false
  stopped : Bool := false
  fault : Option LifecycleFault := none

namespace Lifecycle

/-- Replacing the pointer destroys the old thread object, which terminates if it is joinable. -/
def start (state : Lifecycle) : Lifecycle :=
  if state.server.running then { state with stopped := false }
  else if state.thread.unjoined then { state with fault := some .threadReplaced }
  else
    { state with
      server := { state.server with running := true }
      thread := .accepting
      stopped := false }

/-- An `accept` that `acceptor.cancel()` ends is one that throws. -/
def stop (state : Lifecycle) : Lifecycle :=
  let state := { state with
    server := { state.server with running := false }
    stopped := true }
  match state.thread with
  | .none => { state with fault := some .joinedMissing }
  | .joined => { state with fault := some .joinedTwice }
  | _ => { state with joining := true }

inductive Action
  | start
  | stop
  | stopReturns
  | accept (client : WebsocketClient)
  | sessionEnds

def Action.ofThread : Action → Prop
  | .accept _ => True
  | .sessionEnds => True
  | _ => False

section
variable (platform : Platform) (parse : CString → Except Exception Json)
  (asBuffer : ServerResponse → Except Exception CString)

inductive Step (state : Lifecycle) : Action → Lifecycle → Prop
  | start : state.fault.isNone = true → state.joining = false → Step state .start state.start
  | stop : state.fault.isNone = true → state.joining = false → Step state .stop state.stop
  | stopReturns : state.fault.isNone = true → state.joining = true → state.thread = .finished →
      Step state .stopReturns { state with thread := .joined, joining := false }
  | accept (client : WebsocketClient) : state.fault.isNone = true → state.thread = .accepting →
      Step state (.accept client) { state with thread := .serving client }
  | sessionEnds (client : WebsocketClient) (after : WebsocketSession) :
      state.fault.isNone = true → state.thread = .serving client →
      (WebsocketServer.serverRun platform parse asBuffer client).run
        { server := state.server } = .ok () after →
      Step state .sessionEnds { state with server := after.server, thread := .finished }

def WillAccept (state : Lifecycle) : Prop :=
  ∃ path middle client after,
    Trace (fun before action next => action.ofThread ∧
      Step platform parse asBuffer before action next) state path middle ∧
    client.acceptThrows = false ∧ Step platform parse asBuffer middle (.accept client) after

/-- While the server is started its thread runs and takes a further client, and no thread is
lost or joined twice. -/
structure Sound (state : Lifecycle) : Prop where
  accepts : state.server.running = true → state.stopped = false →
    state.thread.executing ∧ WillAccept platform parse asBuffer state
  joins : state.fault = none

end

def Permitted (state : Lifecycle) : Action → Prop
  | .start => state.server.running = true ∨ state.thread.unjoined = false
  | .stop => state.thread.unjoined = true
  | .accept _ => state.server.running = true → state.stopped = true
  | _ => True

section
variable {platform : Platform} {parse : CString → Except Exception Json}
  {asBuffer : ServerResponse → Except Exception CString} {state : Lifecycle}

/-- `ServerRun` has no way back to `accept`. -/
theorem willAccept_iff (calm : state.fault = none) :
    WillAccept platform parse asBuffer state ↔ state.thread = .accepting := by
  constructor
  · rintro ⟨path, middle, client, after, trace, _, accepted⟩
    have never : state.thread ≠ .accepting → middle.thread ≠ .accepting := by
      intro other
      refine trace.invariant (fun state => state.thread ≠ .accepting) other ?_
      rintro before action after held ⟨ofThread, stepped⟩
      cases stepped with
      | start _ _ => exact ofThread.elim
      | stop _ _ => exact ofThread.elim
      | stopReturns _ _ _ => exact ofThread.elim
      | accept client _ _ => simp
      | sessionEnds client after _ _ _ => simp
    cases accepted with
    | accept _ _ accepting => exact Classical.byContradiction fun other => never other accepting
  · intro accepting
    exact ⟨[], state, { frames := [] }, _, .refl, rfl, .accept _ (by simp [calm]) accepting⟩

structure Idle (state : Lifecycle) : Prop where
  waits : state.server.running = true → state.stopped = false ∧ state.thread = .accepting
  calm : state.fault = none

theorem Idle.sound (idle : Idle state) : Sound platform parse asBuffer state := by
  refine ⟨fun running _ => ?_, idle.calm⟩
  have accepting := (idle.waits running).2
  exact ⟨by simp [accepting, ServerThread.executing], (willAccept_iff idle.calm).mpr accepting⟩

theorem idle_construct (config : Config) : Idle { server := .construct config } :=
  ⟨by simp [WebsocketServer.construct], rfl⟩

theorem stop_unjoined (unjoined : state.thread.unjoined = true) :
    state.stop = { state with
      server := { state.server with running := false }
      stopped := true
      joining := true } := by
  cases thread : state.thread <;> simp_all [stop, ServerThread.unjoined]

theorem stop_faults (absent : ¬ state.thread.unjoined = true) : state.stop.fault ≠ none := by
  cases thread : state.thread <;> simp_all [stop, ServerThread.unjoined]

theorem idle_step {action : Action} {after : Lifecycle}
    (stepped : Step platform parse asBuffer state action after) (idle : Idle state)
    (permitted : state.Permitted action) : Idle after := by
  cases stepped with
  | start calm free =>
      unfold Lifecycle.start
      split
      · rename_i running
        exact ⟨fun _ => ⟨rfl, (idle.waits running).2⟩, idle.calm⟩
      · rename_i resting
        have joined : state.thread.unjoined = false := permitted.resolve_left resting
        simp only [joined, Bool.false_eq_true, if_false]
        exact ⟨fun _ => ⟨rfl, rfl⟩, idle.calm⟩
  | stop calm free =>
      rw [stop_unjoined permitted]
      exact ⟨by simp, idle.calm⟩
  | stopReturns calm joining finished =>
      refine ⟨fun running => ?_, idle.calm⟩
      have accepting := (idle.waits running).2
      simp [finished] at accepting
  | accept client calm accepting =>
      refine ⟨fun running => ?_, idle.calm⟩
      have stopped : state.stopped = true := permitted running
      have unstopped := (idle.waits running).1
      simp [stopped] at unstopped
  | sessionEnds client session calm serving ran =>
      refine ⟨fun running => ?_, idle.calm⟩
      have halted : state.server.running = false := by
        cases flag : state.server.running with
        | false => rfl
        | true =>
            have accepting := (idle.waits flag).2
            simp [serving] at accepting
      have kept := WebsocketServer.preserves_serverRun platform parse asBuffer client
        { server := state.server } halted
      rw [ran] at kept
      have down : session.server.running = false := kept
      simp [down] at running

theorem not_sound_step {action : Action} {after : Lifecycle}
    (stepped : Step platform parse asBuffer state action after)
    (refused : ¬ state.Permitted action) : ¬ Sound platform parse asBuffer after := by
  intro sound
  cases stepped with
  | start calm free =>
      simp only [Permitted, not_or, Bool.not_eq_true, Bool.not_eq_false] at refused
      have faults := sound.joins
      simp [Lifecycle.start, refused.1, refused.2] at faults
  | stop calm free => exact stop_faults refused sound.joins
  | stopReturns calm joining finished => exact refused trivial
  | accept client calm accepting =>
      simp only [Permitted, Classical.not_imp, Bool.not_eq_true] at refused
      have further := (sound.accepts refused.1 refused.2).2
      simp [willAccept_iff sound.joins] at further
  | sessionEnds client session calm serving ran => exact refused trivial

theorem sound_iff_permitted {config : Config} {path : List (Lifecycle × Action)}
    {last : Lifecycle}
    (trace : Trace (Step platform parse asBuffer) { server := .construct config } path last) :
    ((∀ visited ∈ path, Sound platform parse asBuffer visited.1) ∧
        Sound platform parse asBuffer last) ↔
      ∀ visited ∈ path, visited.1.Permitted visited.2 :=
  trace.good_iff_permitted (idle_construct config) Idle.sound idle_step
    fun stepped _ refused => not_sound_step stepped refused

end

def unstarted : Lifecycle where
  server := .construct {}

theorem start_unstarted (platform : Platform) (parse : CString → Except Exception Json)
    (asBuffer : ServerResponse → Except Exception CString) :
    Trace (Step platform parse asBuffer) unstarted [(unstarted, .start)] unstarted.start := by
  have opened : Trace (Step platform parse asBuffer) unstarted [] unstarted := .refl
  exact opened.snoc (.start rfl rfl)

theorem sound_iff_permitted_stopped : ∃ (path : List (Lifecycle × Action)) (last : Lifecycle),
    path.length = 5 ∧ last.thread = .joined ∧ (∀ visited ∈ path,
      Sound .x64 (fun _ => .error .parseError) ServerResponse.asBuffer visited.1) ∧
      Sound .x64 (fun _ => .error .parseError) ServerResponse.asBuffer last := by
  let client : WebsocketClient := { frames := [] }
  have stopped := (start_unstarted .x64 (fun _ => .error .parseError)
    ServerResponse.asBuffer).snoc (.stop rfl rfl)
  have accepted := stopped.snoc (.accept client rfl rfl)
  have ended := accepted.snoc
    (.sessionEnds client { server := unstarted.start.stop.server } rfl rfl rfl)
  have joined := ended.snoc (.stopReturns rfl rfl rfl)
  refine ⟨_, _, rfl, rfl, (sound_iff_permitted joined).mpr ?_⟩
  intro visited member
  simp only [List.cons_append, List.nil_append, List.mem_cons, List.not_mem_nil, or_false]
    at member
  rcases member with rfl | rfl | rfl | rfl | rfl
  · exact .inr rfl
  · rfl
  · exact fun _ => rfl
  · trivial
  · trivial

theorem closedSession_unsound : ¬ ∀ platform parse asBuffer config path last,
    Trace (Step platform parse asBuffer) { server := .construct config } path last →
      Sound platform parse asBuffer last := by
  intro sound
  let client : WebsocketClient := { frames := [] }
  have accepted := Trace.snoc (start_unstarted .x64 (fun _ => .error .parseError)
    ServerResponse.asBuffer) (.accept client rfl rfl)
  have ended := accepted.snoc (.sessionEnds client { server := unstarted.start.server } rfl rfl rfl)
  exact ((sound _ _ _ {} _ _ ended).accepts rfl rfl).1

end Lifecycle

end SocketEvents
