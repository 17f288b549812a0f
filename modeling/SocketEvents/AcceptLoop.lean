import SocketEvents.TCPConnection

/-!
The accept loop. A socket left open makes every later `accept` throw, so the loop is stuck; it
is left open exactly by the exceptions thrown outside the inner `try` blocks.
-/

namespace SocketEvents

open Execution

section
variable {Key : Type} (platform : Platform) (openSsl : OpenSsl Key)
  (parse : CString → Except Exception Json)

def LoopReaches (connections : List Connection) (connection : Connection) : Prop :=
  ∃ handled, handled ++ [connection] <+: connections ∧
    ∀ earlier ∈ handled, ¬ Escapes platform earlier ∧ ¬ Halts earlier

/-- After any of the clients the loop is back at the test of `running`, and if that holds the
socket is closed when `accept` is called. -/
def NeverWedges (server : TCPServer Key) (connections : List Connection) : Prop :=
  ∀ handled, handled <+: connections →
    ∃ state, (serverRun platform openSsl parse handled).run server = .ok () state ∧
      (state.running = true → state.socketOpen = false)

def startedServer (config : Config) : TCPServer Key := (TCPServer.construct openSsl config).start

end

section
variable {Key : Type} {platform : Platform} {openSsl : OpenSsl Key}
  {parse : CString → Except Exception Json} {config : Config} {server : TCPServer Key}
  {connection : Connection}

theorem run_serverRunOnce (closed : server.socketOpen = false) :
    (serverRunOnce platform openSsl parse connection).run server =
      match (acceptMessageHeaderAndBody platform openSsl parse connection).run
          { server with socketOpen := true } with
      | .ok _ after => .ok () { after with socketOpen := false }
      | .error (.thrown exception) after =>
          if exception.isStd then .ok () after else .error (.thrown exception) after
      | .error (.undefined defect) after => .error (.undefined defect) after := by
  have accepted : (acceptorAccept : Exec Exception Defect (TCPServer Key) Unit).run server =
      .ok () { server with socketOpen := true } := by
    simp [acceptorAccept, closed]
  rw [serverRunOnce, run_guarded, EStateM.run_bind, accepted]
  simp only [EStateM.run_bind]
  cases (acceptMessageHeaderAndBody platform openSsl parse connection).run
      { server with socketOpen := true } with
  | ok _ after => rfl
  | error fault after => cases fault <;> rfl

theorem run_serverRunOnce_wedged (wedged : server.socketOpen = true) :
    (serverRunOnce platform openSsl parse connection).run server = .ok () server := by
  have refused : (acceptorAccept : Exec Exception Defect (TCPServer Key) Unit).run server =
      .error (.thrown .systemError) server := by
    simp [acceptorAccept, wedged]
  rw [serverRunOnce, run_guarded, EStateM.run_bind, refused]
  rfl

theorem acceptMessage_escapes (openSsl : OpenSsl Key) (parse : CString → Except Exception Json)
    (running : server.running = true) (escapes : Escapes platform connection) :
    ∃ exception, exception.isStd = true ∧
      (acceptMessageHeaderAndBody platform openSsl parse connection).run server =
        .error (.thrown exception) server := by
  rw [run_acceptMessage]
  cases waits : connection.firstWaitThrows with
  | true => exact ⟨.systemError, rfl, rfl⟩
  | false =>
      rcases escapes with throws | ⟨header, read, unstopped, admitted, escapes⟩
      · simp [waits] at throws
      · simp only [read, unstopped, running, Bool.false_eq_true, if_false, if_true]
        exact run_acceptBody_escapes platform openSsl parse _ admitted escapes

theorem serverRunOnce_open (running : server.running = true) (closed : server.socketOpen = false)
    (escapes : Escapes platform connection) :
    (serverRunOnce platform openSsl parse connection).run server =
      .ok () { server with socketOpen := true } := by
  have stillRunning : ({ server with socketOpen := true } : TCPServer Key).running = true :=
    running
  obtain ⟨exception, std, threw⟩ :=
    acceptMessage_escapes openSsl parse stillRunning escapes
  rw [run_serverRunOnce closed, threw]
  simp [std]

inductive Handling (platform : Platform) (openSsl : OpenSsl Key)
    (parse : CString → Except Exception Json) (config : Config) (connection : Connection)
    (server : TCPServer Key) :
    EStateM.Result (Fault Exception Defect) (TCPServer Key) Unit → Prop
  | fatal {defect : Defect} {after : TCPServer Key} :
      Fatal platform openSsl parse config connection →
      Handling platform openSsl parse config connection server (.error (.undefined defect) after)
  | wedged : Escapes platform connection →
      Handling platform openSsl parse config connection server
        (.ok () { server with socketOpen := true })
  | halted : ¬ Fatal platform openSsl parse config connection →
      ¬ Escapes platform connection → Halts connection →
      Handling platform openSsl parse config connection server (.ok () server.stop)
  | ignored : ¬ Fatal platform openSsl parse config connection →
      ¬ Escapes platform connection → ¬ Halts connection →
      Handling platform openSsl parse config connection server (.ok () server)

theorem Escapes.not_fatal (escapes : Escapes platform connection) :
    ¬ Fatal platform openSsl parse config connection := by
  rintro ⟨waits, header, read, unstopped, admitted, contained, _⟩
  rcases escapes with throws | ⟨header', read', _, _, escapes⟩
  · simp [waits] at throws
  · rw [read] at read'
    exact contained (Option.some.inj read' ▸ escapes)

theorem fatal_of_body {header : EventMessageHeader}
    (read : connection.header = some header) (contained : ¬ Escapes platform connection)
    (unstopped : connection.stopped = false) (admitted : header.Admitted)
    (fatal : connection.allocationNull = true ∨
      FatalBody platform openSsl parse config connection header) :
    Fatal platform openSsl parse config connection := by
  refine ⟨?_, header, read, unstopped, admitted, ?_, fatal⟩
  · exact Bool.eq_false_iff.mpr fun throws => contained (.inl throws)
  · exact fun large => contained (.inr ⟨header, read, unstopped, admitted, large⟩)

theorem serverRunOnce_handling (platform : Platform) (throwsStd : ThrowsStd parse)
    (constructed : AsConstructed openSsl config server) (running : server.running = true)
    (closed : server.socketOpen = false) (connection : Connection) :
    Handling platform openSsl parse config connection server
      ((serverRunOnce platform openSsl parse connection).run server) := by
  by_cases escapes : Escapes platform connection
  · rw [serverRunOnce_open running closed escapes]
    exact .wedged escapes
  · have opened : AsConstructed openSsl config { server with socketOpen := true } :=
      ⟨constructed.configured, constructed.serverConfig, constructed.sigHelper⟩
    have waits : connection.firstWaitThrows = false :=
      Bool.eq_false_iff.mpr fun throws => escapes (.inl throws)
    have restored : { server with socketOpen := false } = server := by rw [← closed]
    rw [run_serverRunOnce closed, run_acceptMessage, waits]
    simp only [Bool.false_eq_true, if_false]
    cases read : connection.header with
    | none =>
        simp only [restored]
        refine .ignored ?_ escapes (by simp [Halts, read])
        rintro ⟨_, header, present, _⟩
        simp [read] at present
    | some header =>
        cases stopped : connection.stopped with
        | true =>
            refine .halted ?_ escapes ⟨waits, by simp [read], stopped⟩
            rintro ⟨_, _, _, unstopped, _⟩
            simp [stopped] at unstopped
        | false =>
            have goes : ¬ Halts connection := by simp [Halts, stopped]
            simp only [Bool.false_eq_true, if_false]
            rw [if_pos running]
            by_cases admitted : header.Admitted
            · have contained : ¬ BodyEscapes platform connection header :=
                fun large => escapes (.inr ⟨header, read, stopped, admitted, large⟩)
              rcases acceptBody_fatal_or_same throwsStd opened admitted contained with
                ⟨fatal, defect, after, ran⟩ | ⟨harmless, ran⟩
              · rw [ran]
                exact .fatal (fatal_of_body read escapes stopped admitted fatal)
              · rw [ran]
                simp only [restored]
                refine .ignored ?_ escapes goes
                rintro ⟨_, other, present, _, _, _, fatal⟩
                rw [read] at present
                exact harmless (Option.some.inj present ▸ fatal)
            · rw [run_acceptBody_refused platform openSsl parse admitted]
              simp only [restored]
              refine .ignored ?_ escapes goes
              rintro ⟨_, other, present, _, admitted', _⟩
              rw [read] at present
              exact admitted (Option.some.inj present ▸ admitted')

theorem loopReaches_cons {first : Connection} {rest : List Connection} :
    LoopReaches platform (first :: rest) connection ↔ connection = first ∨
      (¬ Escapes platform first ∧ ¬ Halts first) ∧ LoopReaches platform rest connection := by
  constructor
  · rintro ⟨handled, isPrefix, passed⟩
    cases handled with
    | nil => exact .inl (List.cons_prefix_cons.mp isPrefix).1
    | cons other handled =>
        obtain ⟨rfl, shorter⟩ := List.cons_prefix_cons.mp isPrefix
        exact .inr ⟨passed other (by simp), handled, shorter,
          fun earlier member => passed earlier (by simp [member])⟩
  · rintro (rfl | ⟨passes, handled, isPrefix, passed⟩)
    · exact ⟨[], ⟨rest, rfl⟩, by simp⟩
    · exact ⟨first :: handled, List.cons_prefix_cons.mpr ⟨rfl, isPrefix⟩,
        by simpa using ⟨passes, passed⟩⟩

theorem not_loopReaches_nil : ¬ LoopReaches platform [] connection := by
  rintro ⟨handled, isPrefix, _⟩
  simp at isPrefix

theorem serverRun_halted (halted : server.running = false) (connections : List Connection) :
    (serverRun platform openSsl parse connections).run server = .ok () server := by
  cases connections with
  | nil => rfl
  | cons first rest => simp [serverRun, halted]

theorem run_serverRun_cons (running : server.running = true) (first : Connection)
    (rest : List Connection) :
    (serverRun platform openSsl parse (first :: rest)).run server =
      match (serverRunOnce platform openSsl parse first).run server with
      | .ok _ next => (serverRun platform openSsl parse rest).run next
      | .error fault after => .error fault after := by
  simp only [serverRun, EStateM.run_bind, EStateM.run_get, running, if_true]
  cases (serverRunOnce platform openSsl parse first).run server <;> rfl

theorem neverWedges_cons_iff (running : server.running = true)
    (closed : server.socketOpen = false) (first : Connection) (rest : List Connection) :
    NeverWedges platform openSsl parse server (first :: rest) ↔
      ∃ next, (serverRunOnce platform openSsl parse first).run server = .ok () next ∧
        NeverWedges platform openSsl parse next rest := by
  constructor
  · intro never
    obtain ⟨next, ran, _⟩ := never [first] (by simp)
    rw [run_serverRun_cons running] at ran
    cases handled : (serverRunOnce platform openSsl parse first).run server with
    | error fault after => simp [handled] at ran
    | ok _ next =>
        refine ⟨next, rfl, fun handledRest isPrefix => ?_⟩
        have later := never (first :: handledRest) (List.cons_prefix_cons.mpr ⟨rfl, isPrefix⟩)
        simpa only [run_serverRun_cons running, handled] using later
  · rintro ⟨next, ran, never⟩ handled isPrefix
    cases handled with
    | nil => exact ⟨server, rfl, fun _ => closed⟩
    | cons other handledRest =>
        obtain ⟨rfl, shorter⟩ := List.cons_prefix_cons.mp isPrefix
        obtain ⟨state, later, stays⟩ := never handledRest shorter
        exact ⟨state, by rw [run_serverRun_cons running, ran]; exact later, stays⟩

theorem serverRun_neverWedges_iff (throwsStd : ThrowsStd parse)
    (constructed : AsConstructed openSsl config server) (running : server.running = true)
    (closed : server.socketOpen = false) (connections : List Connection) :
    NeverWedges platform openSsl parse server connections ↔
      ∀ connection, LoopReaches platform connections connection →
        ¬ Escapes platform connection ∧ ¬ Fatal platform openSsl parse config connection := by
  induction connections with
  | nil =>
      refine iff_of_true ?_ fun _ reached => (not_loopReaches_nil reached).elim
      intro handled isPrefix
      rw [List.prefix_nil.mp isPrefix]
      exact ⟨server, rfl, fun _ => closed⟩
  | cons first rest ih =>
      have handling := serverRunOnce_handling platform throwsStd constructed running closed first
      rw [neverWedges_cons_iff running closed]
      simp only [loopReaches_cons, forall_eq_or_imp]
      generalize (serverRunOnce platform openSsl parse first).run server = result at handling
      cases handling with
      | fatal fatal => exact iff_of_false (by simp) fun safe => safe.1.2 fatal
      | wedged escapes =>
          refine iff_of_false ?_ fun safe => safe.1.1 escapes
          rintro ⟨next, same, never⟩
          obtain rfl := (EStateM.Result.ok.inj same).2
          obtain ⟨state, ran, stays⟩ := never [] List.nil_prefix
          obtain rfl := (EStateM.Result.ok.inj ran).2
          exact Bool.noConfusion (stays running)
      | halted harmless contained halts =>
          refine iff_of_true ⟨_, rfl, fun handled _ => ?_⟩
            ⟨⟨contained, harmless⟩, fun _ reached => (reached.1.2 halts).elim⟩
          exact ⟨_, serverRun_halted rfl handled, fun _ => rfl⟩
      | ignored harmless contained goes =>
          simp only [EStateM.Result.ok.injEq, true_and, exists_eq_left', ih, contained, goes,
            harmless, not_false_eq_true, and_self]

theorem neverWedges_iff (throwsStd : ThrowsStd parse) (config : Config)
    (connections : List Connection) :
    NeverWedges platform openSsl parse (startedServer openSsl config) connections ↔
      ∀ connection, LoopReaches platform connections connection →
        ¬ Escapes platform connection ∧ ¬ Fatal platform openSsl parse config connection :=
  serverRun_neverWedges_iff throwsStd ⟨rfl, rfl, rfl⟩ rfl rfl connections

end

def parseNothing : CString → Except Exception Json := fun _ => .error .parseError

theorem parseNothing_throwsStd : ThrowsStd parseNothing := by
  rintro bytes exception same
  obtain rfl := Except.error.inj same
  rfl

def negativeLength : Connection where
  bytes := eventMagicString ++ 254 :: List.replicate 7 255 ++ List.replicate 384 0

theorem negativeLength_escapes : Escapes .x86 negativeLength := by
  have enough : ¬ (negativeLength.headerReadThrows = true ∨
      negativeLength.bytes.length < headerSize) := by decide +kernel
  refine .inr ⟨EventMessageHeader.ofBytes (negativeLength.bytes.take headerSize), ?_, rfl, ?_, ?_⟩
  · exact if_neg enough
  · decide +kernel
  · decide +kernel

theorem neverWedges_iff_negativeLength :
    NeverWedges .x86 OpenSsl.rejecting parseNothing
        (startedServer OpenSsl.rejecting {}) [{ bytes := [] }] ∧
      ¬ NeverWedges .x86 OpenSsl.rejecting parseNothing
        (startedServer OpenSsl.rejecting {}) [{ bytes := [] }, negativeLength] := by
  have silent : ({ bytes := [] } : Connection).header = none := if_pos (.inr (by decide))
  have contained : ¬ Escapes .x86 { bytes := [] } := by simp [Escapes, silent]
  have goes : ¬ Halts { bytes := [] } := by simp [Halts, silent]
  constructor
  · refine (neverWedges_iff parseNothing_throwsStd {} _).mpr ?_
    intro connection reached
    obtain rfl | ⟨_, later⟩ := loopReaches_cons.mp reached
    · exact ⟨contained, by simp [Fatal, silent]⟩
    · exact (not_loopReaches_nil later).elim
  · rw [neverWedges_iff parseNothing_throwsStd]
    intro safe
    have second : LoopReaches .x86 [{ bytes := [] }, negativeLength] negativeLength :=
      loopReaches_cons.mpr (.inr ⟨⟨contained, goes⟩, loopReaches_cons.mpr (.inl rfl)⟩)
    exact (safe negativeLength second).1 negativeLength_escapes

theorem negativeLength_wedges : ¬ ∀ (Key : Type) platform (openSsl : OpenSsl Key) parse config
    connections, ThrowsStd parse →
      NeverWedges platform openSsl parse (startedServer openSsl config) connections := by
  intro never
  obtain ⟨state, ran, closed⟩ := never Unit .x86 OpenSsl.rejecting parseNothing {}
    [negativeLength] parseNothing_throwsStd _ (List.prefix_refl _)
  have wedged : (serverRunOnce .x86 OpenSsl.rejecting parseNothing negativeLength).run
      (startedServer OpenSsl.rejecting {}) = .ok () _ :=
    serverRunOnce_open rfl rfl negativeLength_escapes
  rw [run_serverRun_cons rfl, wedged] at ran
  obtain rfl := (EStateM.Result.ok.inj ran).2
  exact Bool.noConfusion (closed rfl)

end SocketEvents
