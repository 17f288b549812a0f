import SocketEvents.AcceptLoop
import SocketEvents.FrameFormat
import SocketEvents.PayloadIntegrity
import SocketEvents.ServerThread

/-!
The TCP server beside the game thread. Nothing it receives is ever delivered: a message that gets
through all checks reads the pointer that no constructor has written.
-/

namespace SocketEvents

open Execution Transition Mailbox

section
variable {Key : Type} {platform : Platform} {openSsl : OpenSsl Key}
  {parse : CString → Except Exception Json} {config : Config} {server : TCPServer Key}

theorem serverRun_wedged (wedged : server.socketOpen = true) (connections : List Connection) :
    (serverRun platform openSsl parse connections).run server = .ok () server := by
  induction connections with
  | nil => rfl
  | cons first rest ih =>
      cases running : server.running with
      | false => exact serverRun_halted running _
      | true =>
          rw [run_serverRun_cons running, run_serverRunOnce_wedged wedged]
          exact ih

theorem serverRun_survives_iff (throwsStd : ThrowsStd parse)
    (constructed : AsConstructed openSsl config server) (running : server.running = true)
    (closed : server.socketOpen = false) (connections : List Connection) :
    (∃ after, (serverRun platform openSsl parse connections).run server = .ok () after) ↔
      ∀ connection, LoopReaches platform connections connection →
        ¬ Fatal platform openSsl parse config connection := by
  induction connections with
  | nil => exact iff_of_true ⟨server, rfl⟩ fun _ reached => (not_loopReaches_nil reached).elim
  | cons first rest ih =>
      have handling := serverRunOnce_handling platform throwsStd constructed running closed first
      rw [run_serverRun_cons running]
      simp only [loopReaches_cons, forall_eq_or_imp]
      generalize (serverRunOnce platform openSsl parse first).run server = result at handling
      cases handling with
      | fatal fatal => exact iff_of_false (by simp) fun safe => safe.1 fatal
      | wedged escapes =>
          refine iff_of_true ⟨_, serverRun_wedged rfl rest⟩ ⟨escapes.not_fatal, ?_⟩
          exact fun _ reached => (reached.1.1 escapes).elim
      | halted harmless _ halts =>
          refine iff_of_true ⟨_, serverRun_halted rfl rest⟩ ⟨harmless, ?_⟩
          exact fun _ reached => (reached.1.2 halts).elim
      | ignored harmless contained goes =>
          simp only [ih, harmless, contained, goes, not_false_eq_true, and_self, true_and]

theorem tcp_survives_iff (throwsStd : ThrowsStd parse) (config : Config)
    (connections : List Connection) :
    (∃ after, (serverRun platform openSsl parse connections).run
        (startedServer openSsl config) = .ok () after) ↔
      ∀ connection, LoopReaches platform connections connection →
        ¬ Fatal platform openSsl parse config connection :=
  serverRun_survives_iff throwsStd ⟨rfl, rfl, rfl⟩ rfl rfl connections

end

/-- What changes of the server beside its store, and whether the thread has run into something
undefined. -/
structure TCPThread where
  running : Bool := true
  socketOpen : Bool := false
  undefined : Bool := false

section
variable {Key : Type} (platform : Platform) (openSsl : OpenSsl Key)
  (parse : CString → Except Exception Json) (config : Config)

def TCPThread.server (thread : TCPThread) (store : EventStore) : TCPServer Key :=
  { TCPServer.construct openSsl config with
    running := thread.running, socketOpen := thread.socketOpen, store }

inductive TCPServes (state : TCPThread × EventStore) : TCPThread × EventStore → Prop
  | mk (connection : Connection) {after : TCPServer Key} : state.1.running = true →
      (serverRunOnce platform openSsl parse connection).run
        (state.1.server openSsl config state.2) = .ok () after →
      TCPServes state
        ({ state.1 with running := after.running, socketOpen := after.socketOpen }, after.store)

/-- An iteration that is undefined may leave anything in the store. -/
inductive TCPActs (state : TCPThread × EventStore) : TCPThread × EventStore → Prop
  | serves {after : TCPThread × EventStore} :
      TCPServes platform openSsl parse config state after → TCPActs state after
  | goesWrong (connection : Connection) {defect : Defect} {after : TCPServer Key}
      (store : EventStore) : state.1.running = true →
      (serverRunOnce platform openSsl parse connection).run
        (state.1.server openSsl config state.2) = .error (.undefined defect) after →
      TCPActs state ({ state.1 with undefined := true }, store)

end

section
variable {Key : Type} {platform : Platform} {openSsl : OpenSsl Key}
  {parse : CString → Except Exception Json} {config : Config} {sourceMod : SourceMod}

theorem TCPServes.undefined_same {before after : TCPThread × EventStore}
    (served : TCPServes platform openSsl parse config before after) :
    after.1.undefined = before.1.undefined := by
  cases served
  rfl

/-- A run that met nothing undefined is one of iterations that returned. -/
theorem serves_simulates :
    Simulates (HostedStep platform sourceMod (TCPActs platform openSsl parse config))
      (HostedStep platform sourceMod (TCPServes platform openSsl parse config))
      fun state image => state.1.undefined = false → state = image := by
  intro before after image stepped related
  cases wrong : before.1.undefined with
  | true =>
      refine ⟨[], image, .refl, fun defined => ?_⟩
      cases stepped with
      | step _ => simp [wrong] at defined
      | act acted =>
          cases acted with
          | mk moved =>
              cases moved with
              | serves served =>
                  exact Bool.noConfusion
                    (wrong.symm.trans (served.undefined_same.symm.trans defined))
              | goesWrong => simp at defined
  | false =>
      obtain rfl := related wrong
      cases stepped with
      | step stepped => exact ⟨_, _, .snoc .refl (.step stepped), fun _ => rfl⟩
      | act acted =>
          cases acted with
          | mk moved =>
              cases moved with
              | serves served => exact ⟨_, _, .snoc .refl (.act (.mk served)), fun _ => rfl⟩
              | goesWrong => exact ⟨[], before, .refl, by simp⟩

namespace Handling

variable {connection : Connection} {server : TCPServer Key}
  {result : EStateM.Result (Fault Exception Defect) (TCPServer Key) Unit}

theorem of_escapes (handling : Handling platform openSsl parse config connection server result)
    (escapes : Escapes platform connection) :
    result = .ok () { server with socketOpen := true } := by
  cases handling with
  | fatal fatal => exact (escapes.not_fatal fatal).elim
  | wedged _ => rfl
  | halted _ contained _ => exact (contained escapes).elim
  | ignored _ contained _ => exact (contained escapes).elim

theorem of_halts (handling : Handling platform openSsl parse config connection server result)
    (harmless : ¬ Fatal platform openSsl parse config connection)
    (contained : ¬ Escapes platform connection) (halts : Halts connection) :
    result = .ok () server.stop := by
  cases handling with
  | fatal fatal => exact (harmless fatal).elim
  | wedged escapes => exact (contained escapes).elim
  | halted _ _ _ => rfl
  | ignored _ _ goes => exact (goes halts).elim

theorem of_ignored (handling : Handling platform openSsl parse config connection server result)
    (harmless : ¬ Fatal platform openSsl parse config connection)
    (contained : ¬ Escapes platform connection) (goes : ¬ Halts connection) :
    result = .ok () server := by
  cases handling with
  | fatal fatal => exact (harmless fatal).elim
  | wedged escapes => exact (contained escapes).elim
  | halted _ _ halts => exact (goes halts).elim
  | ignored _ _ _ => rfl

end Handling

theorem serverRunOnce_alike (throwsStd : ThrowsStd parse) (connection : Connection)
    {thread : TCPThread} {store : EventStore} {after : TCPServer Key}
    (running : thread.running = true)
    (ran : (serverRunOnce platform openSsl parse connection).run
      (thread.server openSsl config store) = .ok () after) :
    after.store = store ∧ ∀ other, (serverRunOnce platform openSsl parse connection).run
      (thread.server openSsl config other) = .ok () { after with store := other } := by
  cases opened : thread.socketOpen with
  | true =>
      have wedged : ∀ store, (thread.server openSsl config store).socketOpen = true :=
        fun _ => opened
      rw [run_serverRunOnce_wedged (wedged store)] at ran
      obtain rfl := (EStateM.Result.ok.inj ran).2
      exact ⟨rfl, fun other => run_serverRunOnce_wedged (wedged other)⟩
  | false =>
      have constructed : ∀ store, AsConstructed openSsl config
          (thread.server openSsl config store) := fun _ => ⟨rfl, rfl, rfl⟩
      have handled : ∀ store, Handling platform openSsl parse config connection
          (thread.server openSsl config store)
          ((serverRunOnce platform openSsl parse connection).run
            (thread.server openSsl config store)) := fun store =>
        serverRunOnce_handling platform throwsStd (constructed store) running opened connection
      have here := handled store
      rw [ran] at here
      cases here with
      | wedged escapes => exact ⟨rfl, fun other => (handled other).of_escapes escapes⟩
      | halted harmless contained halts =>
          exact ⟨rfl, fun other => (handled other).of_halts harmless contained halts⟩
      | ignored harmless contained goes =>
          exact ⟨rfl, fun other => (handled other).of_ignored harmless contained goes⟩

theorem tcp_writesOnly (throwsStd : ThrowsStd parse) :
    WritesOnly platform (fun _ _ => False) (TCPServes platform openSsl parse config) := by
  rintro before after ⟨connection, running, ran⟩
  obtain ⟨same, alike⟩ := serverRunOnce_alike throwsStd connection running ran
  refine ⟨id, .silent, same, fun store => ?_⟩
  have moved : TCPServes platform openSsl parse config (before.1, store) _ :=
    .mk connection running (alike store)
  exact moved

/-- Until the server's thread runs into something undefined, no event is dispatched, and no native
finds anything. -/
theorem tcp_undelivered (throwsStd : ThrowsStd parse)
    {path : List (TCPThread × System)} {thread : TCPThread} {system : System}
    (run : Run (HostedStep platform sourceMod (TCPActs platform openSsl parse config))
      ({}, System.start config) path (thread, system)) (defined : thread.undefined = false) :
    system.extension.outcomes = [] ∧ ∀ read ∈ system.extension.reads, read.result = none := by
  obtain ⟨_, image, served, same⟩ := run.simulated serves_simulates fun _ => rfl
  obtain rfl := same defined
  obtain ⟨_, hosted⟩ := hostRun_of_hosted (tcp_writesOnly throwsStd) served
  obtain ⟨_, mail, ran, shows⟩ := hosted.simulated
    (host_simulates platform sourceMod (fun _ _ => False) config) (shows_start platform config)
  constructor
  · have none := published_of_silent ran
    have settled := shows.2.settled
    simp only [State.published, List.map_nil, Option.toList_none, List.append_nil,
      List.append_eq_nil_iff, List.map_eq_nil_iff] at none
    rw [none.1.1, List.map_nil] at settled
    exact List.map_eq_nil_iff.mp settled
  · intro read member
    cases returned : read.result with
    | none => rfl
    | some result =>
        obtain ⟨_, ⟨_, _, kind, _⟩, _⟩ := reads_published hosted read member result returned
        exact kind.elim

end

theorem parseGreeting_throwsStd : ThrowsStd parseGreeting := by
  intro bytes exception failed
  unfold parseGreeting at failed
  split at failed
  · simp at failed
  · obtain rfl := Except.error.inj failed
    rfl

theorem tcp_survives_iff_greeting : ¬ ∃ after, (serverRun .x86 OpenSsl.rejecting parseGreeting
    [{ bytes := [] }, { bytes := greetingBytes }]).run
      (startedServer OpenSsl.rejecting { secure := false }) = .ok () after := by
  rw [tcp_survives_iff parseGreeting_throwsStd]
  intro safe
  have complete : ¬ ((false : Bool) = true ∨ greetingBytes.length < headerSize) := by
    decide +kernel
  refine safe { bytes := greetingBytes } (loopReaches_cons.mpr (.inr ⟨?_, ?_⟩)) ?_
  · exact ⟨by simp [Escapes, Connection.header, headerSize], by simp [Halts]⟩
  · exact loopReaches_cons.mpr (.inl rfl)
  · refine ⟨rfl, EventMessageHeader.ofBytes (greetingBytes.take headerSize), if_neg complete, rfl,
      by decide +kernel, by decide +kernel,
      .inr ⟨rfl, .inr ⟨by decide +kernel, .inr ⟨?_, greeting, ?_⟩⟩⟩⟩
    · simp [PassesCheck]
    · exact if_pos (by decide +kernel)

theorem tcp_undelivered_silent : ∃ system : System, system.phase = .looping 0 0 ∧
    system.extension.outcomes = [] := by
  have start : Run (HostedStep .x86 keepingPlugins
      (TCPActs .x86 OpenSsl.rejecting parseGreeting { websockets := false }))
      ({}, System.start { websockets := false }) [] _ := .refl
  have served := start.snoc (.act (.mk (.serves (.mk { bytes := [] } rfl rfl))))
  have entered := served.snoc (.step (.loop (.enterFrame rfl) rfl))
  exact ⟨_, rfl, (tcp_undelivered parseGreeting_throwsStd entered rfl).1⟩

end SocketEvents
