import SocketEvents.SignatureGate

/-!
What becomes of one connection that a running server accepts: it ends in undefined behaviour,
leaves the socket open, ends the loop, or lets the loop go on.
-/

namespace SocketEvents

open Execution

section
variable {Key : Type} (platform : Platform) (openSsl : OpenSsl Key)
  (parse : CString → Except Exception Json) (config : Config)

/-- There is a key, it can be read, and none of the results is 0. -/
def OpenSsl.Accepts (pem body signature : CString) : Prop :=
  pem ≠ [] ∧ ∃ publicKey, openSsl.pemReadBioPubkey (cStr pem) = some publicKey ∧
    openSsl.digestVerifyInit publicKey ≠ 0 ∧ openSsl.digestVerifyUpdate publicKey body ≠ 0 ∧
    openSsl.digestVerifyFinal publicKey body signature ≠ 0

def PassesCheck (body signature : CString) : Prop :=
  config.secure = true → openSsl.Accepts config.publicKeyPem body signature

/-- The body overruns its buffer, or is complete and either checked with a key that was never
written or handed on to `ParseMessageAndEnqueue`, which reads a pointer that never was. -/
def FatalBody (connection : Connection) (header : EventMessageHeader) : Prop :=
  connection.bodyReadThrows = false ∧
    (bufferCapacity platform header.dataLength <
        min (platform.toSizeT header.dataLength.toInt) (connection.bytes.drop headerSize).length ∨
      platform.toSizeT header.dataLength.toInt ≤ (connection.bytes.drop headerSize).length ∧
        (config.secure = true ∧ config.publicKeyPem = [] ∨
          PassesCheck openSsl config (bodyBytes platform connection header) header.signature ∧
            ∃ json, parse (cStr (bodyBytes platform connection header)) = .ok json))

def Fatal (connection : Connection) : Prop :=
  connection.firstWaitThrows = false ∧ ∃ header, connection.header = some header ∧
    connection.stopped = false ∧ header.Admitted ∧ ¬ BodyEscapes platform connection header ∧
    (connection.allocationNull = true ∨
      FatalBody platform openSsl parse config connection header)

/-- An exception leaves `AcceptMessageHeaderAndBody`: a wait throws, or the buffer cannot be
allocated for the length the header announces. -/
def Escapes (connection : Connection) : Prop :=
  connection.firstWaitThrows = true ∨ ∃ header, connection.header = some header ∧
    connection.stopped = false ∧ header.Admitted ∧ BodyEscapes platform connection header

/-- `Stop` is called before the test of `running`. -/
def Halts (connection : Connection) : Prop :=
  connection.firstWaitThrows = false ∧ connection.header.isSome = true ∧
    connection.stopped = true

end

section
variable {Key : Type} {platform : Platform} {openSsl : OpenSsl Key}
  {parse : CString → Except Exception Json} {config : Config} {server : TCPServer Key}
  {connection : Connection} {header : EventMessageHeader}

structure AsConstructed (openSsl : OpenSsl Key) (config : Config) (server : TCPServer Key) :
    Prop where
  configured : server.config = config
  serverConfig : server.serverConfig = none
  sigHelper : server.sigHelper = .construct openSsl config.publicKeyPem

inductive Checked (openSsl : OpenSsl Key) (config : Config) (body signature : CString)
    (server : TCPServer Key) :
    EStateM.Result (Fault Exception Defect) (TCPServer Key) Bool → Prop
  | unwritten : config.secure = true → config.publicKeyPem = [] →
      Checked openSsl config body signature server (.error (.undefined .uninitialisedRead) server)
  | refused : ¬ (config.secure = true ∧ config.publicKeyPem = []) →
      ¬ PassesCheck openSsl config body signature →
      Checked openSsl config body signature server (.ok false server)
  | passed : ¬ (config.secure = true ∧ config.publicKeyPem = []) →
      PassesCheck openSsl config body signature →
      Checked openSsl config body signature server (.ok true server)

theorem verifySignature_checked (constructed : AsConstructed openSsl config server)
    (body : CString) :
    Checked openSsl config body header.signature server
      ((verifySignature openSsl header body).run server) := by
  obtain ⟨sameConfig, _, sameHelper⟩ := constructed
  cases secure : config.secure with
  | false =>
      have ran : (verifySignature openSsl header body).run server = .ok true server := by
        simp [verifySignature, sameConfig, secure]
      rw [ran]
      exact .passed (by simp [secure]) (by simp [PassesCheck, secure])
  | true =>
      have asked : (verifySignature openSsl header body).run server =
          ((SignatureHelper.construct openSsl config.publicKeyPem).isValid openSsl body
            header.signature).run server := by
        simp [verifySignature, sameConfig, secure, sameHelper]
      rw [asked]
      by_cases empty : config.publicKeyPem = []
      · rw [empty, run_isValid_empty]
        exact .unwritten secure empty
      · have written : ¬ (config.secure = true ∧ config.publicKeyPem = []) :=
          fun both => empty both.2
        cases loaded : openSsl.pemReadBioPubkey (cStr config.publicKeyPem) with
        | none =>
            rw [run_isValid_malformed openSsl empty loaded]
            refine .refused written fun passes => ?_
            obtain ⟨_, publicKey, found, _⟩ := passes secure
            simp [loaded] at found
        | some publicKey =>
            rw [run_isValid_loaded openSsl empty loaded]
            have verdict : PassesCheck openSsl config body header.signature ↔
                openSsl.digestVerifyInit publicKey ≠ 0 ∧
                  openSsl.digestVerifyUpdate publicKey body ≠ 0 ∧
                  openSsl.digestVerifyFinal publicKey body header.signature ≠ 0 := by
              simp [PassesCheck, OpenSsl.Accepts, secure, empty, loaded]
            by_cases passes : PassesCheck openSsl config body header.signature
            · rw [decide_eq_true (verdict.mp passes)]
              exact .passed written passes
            · rw [decide_eq_false fun results => passes (verdict.mpr results)]
              exact .refused written passes

theorem socketRead_cases {σ : Type} (capacity count : Nat) (available : List UInt8) (throws : Bool)
    (state : σ) :
    (throws = false ∧ capacity < min count available.length ∧
      (socketRead capacity count available throws).run state =
        .error (.undefined .arrayOverrun) state) ∨
    (throws = false ∧ ¬ capacity < min count available.length ∧ count ≤ available.length ∧
      (socketRead capacity count available throws).run state =
        .ok (available.take count) state) ∨
    (¬ (throws = false ∧ (capacity < min count available.length ∨ count ≤ available.length)) ∧
      (socketRead capacity count available throws).run state =
        .error (.thrown .systemError) state) := by
  cases throws with
  | true => exact .inr (.inr ⟨by simp, rfl⟩)
  | false =>
      by_cases overruns : capacity < min count available.length
      · exact .inl ⟨rfl, overruns, by simp [socketRead, overruns]⟩
      · by_cases short : available.length < count
        · exact .inr (.inr ⟨by omega, by simp [socketRead, overruns, short]⟩)
        · exact .inr (.inl ⟨rfl, overruns, Nat.not_lt.mp short,
            by simp [socketRead, overruns, short]⟩)

theorem readBody_fatal_or_same (throwsStd : ThrowsStd parse)
    (constructed : AsConstructed openSsl config server) :
    (FatalBody platform openSsl parse config connection header ∧ ∃ defect after,
      (readBody platform openSsl parse connection header).run server =
        .error (.undefined defect) after) ∨
    (¬ FatalBody platform openSsl parse config connection header ∧
      (guarded Exception.isStd (readBody platform openSsl parse connection header)
        acceptorCancel).run server = .ok () server) := by
  rw [run_guarded]
  rcases socketRead_cases (bufferCapacity platform header.dataLength)
    (platform.toSizeT header.dataLength.toInt) (connection.bytes.drop headerSize)
    connection.bodyReadThrows server with
    ⟨reads, overruns, ran⟩ | ⟨reads, fits, complete, ran⟩ | ⟨fails, ran⟩
  · exact .inl ⟨⟨reads, .inl overruns⟩, .arrayOverrun, server,
      by simp [readBody, ran]⟩
  · have whole : (connection.bytes.drop headerSize).take
        (platform.toSizeT header.dataLength.toInt) = bodyBytes platform connection header := rfl
    rw [whole] at ran
    have checked : Checked openSsl config _ header.signature server _ :=
      verifySignature_checked constructed (bodyBytes platform connection header)
    generalize verified : (verifySignature openSsl header (bodyBytes platform connection
      header)).run server = result at checked
    cases checked with
    | unwritten secure empty =>
        exact .inl ⟨⟨reads, .inr ⟨complete, .inl ⟨secure, empty⟩⟩⟩, .uninitialisedRead, server,
          by simp only [readBody, EStateM.run_bind, ran, verified]⟩
    | refused written fails =>
        refine .inr ⟨?_, ?_⟩
        · rintro ⟨_, overruns | ⟨_, unwritten | ⟨passes, _⟩⟩⟩
          · exact fits overruns
          · exact written unwritten
          · exact fails passes
        · simp [readBody, ran, verified]
    | passed written passes =>
        cases parsed : parse (cStr (bodyBytes platform connection header)) with
        | error exception =>
            refine .inr ⟨?_, ?_⟩
            · rintro ⟨_, overruns | ⟨_, unwritten | ⟨_, json, same⟩⟩⟩
              · exact fits overruns
              · exact written unwritten
              · simp [parsed] at same
            · simp [readBody, ran, verified, parsed, throwsStd _ _ parsed, acceptorCancel]
        | ok json =>
            refine .inl ⟨⟨reads, .inr ⟨complete, .inr ⟨passes, json, parsed⟩⟩⟩,
              .uninitialisedRead, server, ?_⟩
            simp only [readBody, EStateM.run_bind, ran, verified, if_true, parsed,
              run_liftThrow_ok, EStateM.run_get, constructed.serverConfig]
            rfl
  · refine .inr ⟨fun fatal => fails ⟨fatal.1, fatal.2.imp id And.left⟩, ?_⟩
    simp [readBody, ran, Exception.isStd, acceptorCancel]

theorem acceptBody_fatal_or_same (throwsStd : ThrowsStd parse)
    (constructed : AsConstructed openSsl config server)
    (admitted : header.Admitted) (contained : ¬ BodyEscapes platform connection header) :
    ((connection.allocationNull = true ∨
        FatalBody platform openSsl parse config connection header) ∧
      ∃ defect after, (acceptBody platform openSsl parse connection header).run server =
        .error (.undefined defect) after) ∨
    (¬ (connection.allocationNull = true ∨
        FatalBody platform openSsl parse config connection header) ∧
      (acceptBody platform openSsl parse connection header).run server = .ok () server) := by
  rw [run_acceptBody platform openSsl parse admitted contained]
  cases connection.allocationNull with
  | true => exact .inl ⟨.inl rfl, .nullBuffer, server, rfl⟩
  | false =>
      simp only [Bool.false_eq_true, if_false, false_or]
      rcases readBody_fatal_or_same throwsStd constructed with
        ⟨fatal, defect, after, ran⟩ | harmless
      · exact .inl ⟨fatal, defect, after, by rw [run_guarded, ran]⟩
      · exact .inr harmless

end

end SocketEvents
