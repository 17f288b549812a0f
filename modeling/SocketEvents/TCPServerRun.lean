import SocketEvents.TCPServerCore

/-!
What handling one connection does to the server: the socket calls change nothing, the body is
at most enqueued, and only after the signature check let it through.
-/

namespace SocketEvents

open Execution

section
variable {Key σ : Type}

theorem run_socketWait (throws : Bool) (state : σ) :
    (socketWait throws).run state =
      if throws then .error (.thrown .systemError) state else .ok () state := by
  cases throws <;> rfl

theorem run_allocateBuffer (platform : Platform) (connection : Connection) (capacity : Nat)
    (state : σ) :
    (allocateBuffer platform connection capacity).run state =
      if connection.allocationThrows = true ∨
          connection.allocationNull = false ∧ 2 ^ (platform.sizeBits - 1) ≤ capacity then
        .error (.thrown .badAlloc) state
      else if connection.allocationNull then .error (.undefined .nullBuffer) state
      else .ok () state := by
  unfold allocateBuffer
  split
  · rfl
  · split <;> rfl

theorem socketRead_state (capacity count : Nat) (available : List UInt8) (throws : Bool)
    (state : σ) : resultState ((socketRead capacity count available throws).run state) = state := by
  unfold socketRead
  split
  · rfl
  · split
    · rfl
    · split <;> rfl

theorem socketRead_ok {capacity count : Nat} {available body : List UInt8} {throws : Bool}
    {state after : σ}
    (read : (socketRead capacity count available throws).run state = .ok body after) :
    body = available.take count ∧ count ≤ available.length ∧ after = state := by
  unfold socketRead at read
  split at read
  · simp at read
  · split at read
    · simp at read
    · split at read
      · simp at read
      · rename_i complete
        simp only [EStateM.run_pure, EStateM.Result.ok.injEq] at read
        exact ⟨read.1.symm, Nat.not_lt.mp complete, read.2.symm⟩

def Connection.header (connection : Connection) : Option EventMessageHeader :=
  if connection.headerReadThrows ∨ connection.bytes.length < headerSize then none
  else some (EventMessageHeader.ofBytes (connection.bytes.take headerSize))

theorem run_readHeader (connection : Connection) (server : TCPServer Key) :
    (readHeader connection).run server = .ok connection.header server := by
  have fits : ¬ headerSize < min headerSize connection.bytes.length := by omega
  rw [readHeader, run_guarded]
  by_cases throws : connection.headerReadThrows = true
  · simp [socketRead, throws, Exception.isStd, acceptorCancel, Connection.header]
  · by_cases short : connection.bytes.length < headerSize
    · simp [socketRead, throws, short, fits, Exception.isStd, acceptorCancel, Connection.header]
    · simp [socketRead, throws, short, fits, Connection.header]

theorem isValid_state (openSsl : OpenSsl Key) (helper : SignatureHelper Key)
    (message signature : CString) (state : σ) :
    resultState ((helper.isValid openSsl message signature).run state) = state := by
  unfold SignatureHelper.isValid
  cases helper.publicKey with
  | none => rfl
  | some loaded =>
      cases loaded with
      | none => rfl
      | some publicKey =>
          simp only [initialised, pure_bind]
          split
          · rfl
          · split <;> rfl

theorem verifySignature_state (openSsl : OpenSsl Key) (header : EventMessageHeader)
    (body : CString) (server : TCPServer Key) :
    resultState ((verifySignature openSsl header body).run server) = server := by
  have same := isValid_state openSsl server.sigHelper body header.signature server
  cases secure : server.config.secure with
  | true => simpa [verifySignature, secure] using same
  | false => simp [verifySignature, secure, resultState]

theorem onStore_state {α : Type} (call : Exec Exception Defect EventStore α)
    (server : TCPServer Key) :
    resultState ((onStore call).run server) =
      { server with store := resultState (call.run server.store) } := by
  simp only [onStore, EStateM.run]
  cases call server.store <;> rfl

end

section
variable {Key : Type} (platform : Platform) (openSsl : OpenSsl Key)
  (parse : CString → Except Exception Json)

def bodyBytes (connection : Connection) (header : EventMessageHeader) : CString :=
  (connection.bytes.drop headerSize).take (platform.toSizeT header.dataLength.toInt)

/-- Between two states only the store differs, and it differs only if the check passed. -/
structure Accepts (connection : Connection) (header : EventMessageHeader)
    (before after : TCPServer Key) : Prop where
  frame : after = { before with store := after.store }
  complete : after.store ≠ before.store →
    (bodyBytes platform connection header).length = platform.toSizeT header.dataLength.toInt
  verified : after.store ≠ before.store →
    (verifySignature openSsl header (bodyBytes platform connection header)).run before =
      .ok true before

theorem accepts_refl (connection : Connection) (header : EventMessageHeader)
    (server : TCPServer Key) : Accepts platform openSsl connection header server server :=
  ⟨rfl, fun changed => (changed rfl).elim, fun changed => (changed rfl).elim⟩

theorem readBody_accepts (connection : Connection) (header : EventMessageHeader)
    (server : TCPServer Key) :
    Accepts platform openSsl connection header server
      (resultState ((readBody platform openSsl parse connection header).run server)) := by
  have same := accepts_refl platform openSsl connection header server
  have kept := socketRead_state (bufferCapacity platform header.dataLength)
    (platform.toSizeT header.dataLength.toInt) (connection.bytes.drop headerSize)
    connection.bodyReadThrows server
  rw [readBody]
  rcases resultState_bind kept _ with unchanged | ⟨body, read, final⟩
  · rw [unchanged]
    exact same
  · rw [final]
    obtain ⟨bodyEq, complete, _⟩ := socketRead_ok read
    have whole : body = bodyBytes platform connection header := bodyEq
    rcases resultState_bind (verifySignature_state openSsl header body server) _ with
      unchanged | ⟨accepted, checked, final⟩
    · rw [unchanged]
      exact same
    · rw [final]
      cases accepted with
      | false => exact same
      | true =>
          rw [whole] at checked
          cases parsed : parse (cStr body) with
          | error exception => simpa [resultState] using same
          | ok json =>
              have stored := onStore_state
                (parseMessageAndEnqueue platform server.serverConfig json) server
              simp only [if_true, run_liftThrow_ok, EStateM.run_bind, EStateM.run_get]
              rw [← EStateM.run_bind, bind_pure_comp, resultState_map, stored]
              exact ⟨rfl, fun _ => List.length_take_of_le complete, fun _ => checked⟩

theorem header_signature {connection : Connection} {header : EventMessageHeader}
    (read : connection.header = some header) :
    header.signature = (connection.bytes.drop 16).take 384 ∧ header.signature.length = 384 := by
  unfold Connection.header at read
  split at read
  · simp at read
  · rename_i complete
    simp only [Option.some.injEq] at read
    subst read
    have long : headerSize ≤ connection.bytes.length := by
      simp only [not_or, Nat.not_lt] at complete
      exact complete.2
    simp only [headerSize] at long
    have signature : (EventMessageHeader.ofBytes (connection.bytes.take headerSize)).signature =
        (connection.bytes.drop 16).take 384 := by
      simp [EventMessageHeader.ofBytes, headerSize, List.drop_take, List.take_take]
    refine ⟨signature, ?_⟩
    rw [signature, List.length_take, List.length_drop]
    omega

theorem run_acceptMessage (connection : Connection) (server : TCPServer Key) :
    (acceptMessageHeaderAndBody platform openSsl parse connection).run server =
      if connection.firstWaitThrows then .error (.thrown .systemError) server
      else match connection.header with
        | none => .ok () server
        | some header =>
            let server := if connection.stopped then server.stop else server
            if server.running then (acceptBody platform openSsl parse connection header).run server
            else .ok () server := by
  rw [acceptMessageHeaderAndBody, EStateM.run_bind, run_socketWait]
  cases connection.firstWaitThrows with
  | true => rfl
  | false =>
      simp only [Bool.false_eq_true, if_false, EStateM.run_bind, run_readHeader]
      cases connection.header with
      | none => rfl
      | some header =>
          simp only [EStateM.run_bind, EStateM.run_modify, EStateM.run_get]
          generalize (if connection.stopped = true then server.stop else server) = current
          cases current.running <;> simp

def EventMessageHeader.Admitted (header : EventMessageHeader) : Prop :=
  header.magicString = eventMagicString ∧ header.dataLength.toInt ≤ maxBufferSize

instance (header : EventMessageHeader) : Decidable header.Admitted :=
  inferInstanceAs (Decidable (_ ∧ _))

/-- The second wait or the allocation throws, outside both inner `try` blocks. -/
def BodyEscapes (connection : Connection) (header : EventMessageHeader) : Prop :=
  connection.secondWaitThrows = true ∨ connection.allocationThrows = true ∨
    connection.allocationNull = false ∧
      2 ^ (platform.sizeBits - 1) ≤ bufferCapacity platform header.dataLength

instance (connection : Connection) (header : EventMessageHeader) :
    Decidable (BodyEscapes platform connection header) :=
  inferInstanceAs (Decidable (_ ∨ _))

theorem run_acceptBody_refused {connection : Connection} {header : EventMessageHeader}
    {server : TCPServer Key} (refused : ¬ header.Admitted) :
    (acceptBody platform openSsl parse connection header).run server = .ok () server := by
  unfold acceptBody
  split
  · rename_i magic
    split
    · rfl
    · rename_i small
      exact (refused ⟨magic, Int.not_lt.mp small⟩).elim
  · rfl

theorem run_acceptBody_escapes {connection : Connection} {header : EventMessageHeader}
    (server : TCPServer Key) (admitted : header.Admitted)
    (escapes : BodyEscapes platform connection header) :
    ∃ exception, exception.isStd = true ∧
      (acceptBody platform openSsl parse connection header).run server =
        .error (.thrown exception) server := by
  obtain ⟨magic, small⟩ := admitted
  cases waits : connection.secondWaitThrows with
  | true =>
      refine ⟨.systemError, rfl, ?_⟩
      simp [acceptBody, magic, Int.not_lt.mpr small, run_socketWait, waits]
  | false =>
      have large : connection.allocationThrows = true ∨ connection.allocationNull = false ∧
          2 ^ (platform.sizeBits - 1) ≤ bufferCapacity platform header.dataLength := by
        simpa [BodyEscapes, waits] using escapes
      refine ⟨.badAlloc, rfl, ?_⟩
      simp [acceptBody, magic, Int.not_lt.mpr small, run_socketWait, waits,
        run_allocateBuffer, large]

theorem run_acceptBody {connection : Connection} {header : EventMessageHeader}
    {server : TCPServer Key} (admitted : header.Admitted)
    (contained : ¬ BodyEscapes platform connection header) :
    (acceptBody platform openSsl parse connection header).run server =
      if connection.allocationNull then .error (.undefined .nullBuffer) server
      else (guarded Exception.isStd (readBody platform openSsl parse connection header)
        acceptorCancel).run server := by
  obtain ⟨magic, small⟩ := admitted
  have fits : ¬ (connection.allocationThrows = true ∨ connection.allocationNull = false ∧
      2 ^ (platform.sizeBits - 1) ≤ bufferCapacity platform header.dataLength) :=
    fun large => contained (.inr large)
  have waits : connection.secondWaitThrows = false := by
    cases throws : connection.secondWaitThrows with
    | false => rfl
    | true => exact (contained (.inl throws)).elim
  have allocated := run_allocateBuffer platform connection
    (bufferCapacity platform header.dataLength) server
  rw [if_neg fits] at allocated
  cases null : connection.allocationNull with
  | true =>
      simp [acceptBody, magic, Int.not_lt.mpr small, run_socketWait, waits, allocated, null]
  | false =>
      simp [acceptBody, magic, Int.not_lt.mpr small, run_socketWait, waits, allocated, null]

theorem acceptBody_accepts (connection : Connection) (header : EventMessageHeader)
    (server : TCPServer Key) :
    Accepts platform openSsl connection header server
      (resultState ((acceptBody platform openSsl parse connection header).run server)) := by
  have same := accepts_refl platform openSsl connection header server
  by_cases admitted : header.Admitted
  · by_cases escapes : BodyEscapes platform connection header
    · obtain ⟨exception, _, threw⟩ :=
        run_acceptBody_escapes platform openSsl parse server admitted escapes
      rw [threw]
      exact same
    · rw [run_acceptBody platform openSsl parse admitted escapes]
      cases connection.allocationNull with
      | true => exact same
      | false =>
          simp only [Bool.false_eq_true, if_false]
          rw [resultState_guarded _ _ _ _ (fun _ => rfl)]
          exact readBody_accepts platform openSsl parse connection header server
  · rw [run_acceptBody_refused platform openSsl parse admitted]
    exact same

end

end SocketEvents
