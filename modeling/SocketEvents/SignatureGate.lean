import SocketEvents.TCPServerRun

/-!
The signature gate of secure mode. It holds exactly for a key text that is not empty and for
OpenSSL results that are never all non-zero without being all one.
-/

namespace SocketEvents

open Execution

section
variable {Key σ : Type} (openSsl : OpenSsl Key)

def Verified (pem message signature : CString) : Prop :=
  pem ≠ [] ∧ ∃ publicKey, openSsl.pemReadBioPubkey (cStr pem) = some publicKey ∧
    openSsl.digestVerifyInit publicKey = 1 ∧ openSsl.digestVerifyUpdate publicKey message = 1 ∧
    openSsl.digestVerifyFinal publicKey message signature = 1

/-- `IsValid` refuses what is not verified, and in secure mode nothing else is enqueued. -/
structure SignatureGate (pem : CString) : Prop where
  isValid : ∀ message signature, ¬ Verified openSsl pem message signature →
    ((SignatureHelper.construct openSsl pem).isValid openSsl message signature).run () =
      .ok false ()
  gate : ∀ platform parse (connection : Connection) (server : TCPServer Key),
    server.config.secure = true → server.config.publicKeyPem = pem →
    server.sigHelper = .construct openSsl pem →
    (resultState ((acceptMessageHeaderAndBody platform openSsl parse connection).run
      server)).store.eventQueue.enqueued ≠ server.store.eventQueue.enqueued →
    ∃ header, connection.header = some header ∧
      header.signature = (connection.bytes.drop 16).take 384 ∧ header.signature.length = 384 ∧
      (bodyBytes platform connection header).length = platform.toSizeT header.dataLength.toInt ∧
      Verified openSsl pem (bodyBytes platform connection header) header.signature

/-- The text is not empty, and whenever a key is read from it and no result is 0, all are 1. -/
def TrustedResults (pem : CString) : Prop :=
  pem ≠ [] ∧ ∀ publicKey, openSsl.pemReadBioPubkey (cStr pem) = some publicKey →
    ∀ message signature, openSsl.digestVerifyInit publicKey ≠ 0 →
      openSsl.digestVerifyUpdate publicKey message ≠ 0 →
      openSsl.digestVerifyFinal publicKey message signature ≠ 0 →
      openSsl.digestVerifyInit publicKey = 1 ∧ openSsl.digestVerifyUpdate publicKey message = 1 ∧
        openSsl.digestVerifyFinal publicKey message signature = 1

theorem run_isValid_empty (message signature : CString) (state : σ) :
    ((SignatureHelper.construct openSsl []).isValid openSsl message signature).run state =
      .error (.undefined .uninitialisedRead) state := rfl

theorem run_isValid_malformed {pem : CString} (nonempty : pem ≠ [])
    (malformed : openSsl.pemReadBioPubkey (cStr pem) = none) (message signature : CString)
    (state : σ) :
    ((SignatureHelper.construct openSsl pem).isValid openSsl message signature).run state =
      .ok false state := by
  simp [SignatureHelper.construct, nonempty, SignatureHelper.isValid, initialised, malformed]

theorem run_isValid_loaded {pem : CString} {publicKey : Key} (nonempty : pem ≠ [])
    (loaded : openSsl.pemReadBioPubkey (cStr pem) = some publicKey) (message signature : CString)
    (state : σ) :
    ((SignatureHelper.construct openSsl pem).isValid openSsl message signature).run state =
      .ok (decide (openSsl.digestVerifyInit publicKey ≠ 0 ∧
        openSsl.digestVerifyUpdate publicKey message ≠ 0 ∧
        openSsl.digestVerifyFinal publicKey message signature ≠ 0)) state := by
  by_cases initialises : openSsl.digestVerifyInit publicKey = 0
  · simp [SignatureHelper.construct, nonempty, SignatureHelper.isValid, initialised, loaded,
      intToBool, initialises]
  · by_cases updates : openSsl.digestVerifyUpdate publicKey message = 0
    · simp [SignatureHelper.construct, nonempty, SignatureHelper.isValid, initialised, loaded,
        intToBool, initialises, updates]
    · simp [SignatureHelper.construct, nonempty, SignatureHelper.isValid, initialised, loaded,
        intToBool, initialises, updates]

theorem run_isValid_trusted {pem : CString} (trusted : TrustedResults openSsl pem)
    (message signature : CString) (state : σ) :
    ∃ valid, ((SignatureHelper.construct openSsl pem).isValid openSsl message signature).run
      state = .ok valid state ∧ (valid = true → Verified openSsl pem message signature) := by
  obtain ⟨nonempty, results⟩ := trusted
  cases loaded : openSsl.pemReadBioPubkey (cStr pem) with
  | none =>
      exact ⟨false, run_isValid_malformed openSsl nonempty loaded message signature state,
        by simp⟩
  | some publicKey =>
      refine ⟨_, run_isValid_loaded openSsl nonempty loaded message signature state, ?_⟩
      intro valid
      obtain ⟨initialises, updates, finishes⟩ := of_decide_eq_true valid
      exact ⟨nonempty, publicKey, loaded,
        results publicKey loaded message signature initialises updates finishes⟩

theorem acceptMessage_checked {platform : Platform} {parse : CString → Except Exception Json}
    {connection : Connection} {server : TCPServer Key}
    (changed : (resultState ((acceptMessageHeaderAndBody platform openSsl parse connection).run
      server)).store ≠ server.store) :
    ∃ header, connection.header = some header ∧
      (bodyBytes platform connection header).length =
        platform.toSizeT header.dataLength.toInt ∧
      (verifySignature openSsl header (bodyBytes platform connection header)).run server =
        .ok true server := by
  rw [run_acceptMessage] at changed
  cases waits : connection.firstWaitThrows with
  | true => simp [waits, resultState] at changed
  | false =>
      simp only [waits, Bool.false_eq_true, if_false] at changed
      cases read : connection.header with
      | none => simp [read, resultState] at changed
      | some header =>
          simp only [read] at changed
          cases stopped : connection.stopped with
          | true => simp [stopped, TCPServer.stop, resultState] at changed
          | false =>
              simp only [stopped, Bool.false_eq_true, if_false] at changed
              by_cases running : server.running = true
              · simp only [running, if_true] at changed
                have accepts := acceptBody_accepts platform openSsl parse connection header server
                exact ⟨header, rfl, accepts.complete changed, accepts.verified changed⟩
              · simp [running, resultState] at changed

theorem signatureGate_iff (pem : CString) :
    SignatureGate openSsl pem ↔ TrustedResults openSsl pem := by
  constructor
  · intro gate
    -- the gate is asked about each message, so it fixes the results for each
    have nonempty : pem ≠ [] := by
      rintro rfl
      have refused := gate.isValid [] [] fun verified => verified.1 rfl
      simp [run_isValid_empty] at refused
    refine ⟨nonempty, ?_⟩
    intro publicKey loaded message signature initialises updates finishes
    by_cases verified : Verified openSsl pem message signature
    · obtain ⟨_, otherKey, otherLoaded, results⟩ := verified
      rw [loaded] at otherLoaded
      exact Option.some.inj otherLoaded ▸ results
    · have refused := gate.isValid message signature verified
      rw [run_isValid_loaded openSsl nonempty loaded] at refused
      simp [initialises, updates, finishes] at refused
  · intro trusted
    constructor
    · intro message signature unverified
      obtain ⟨valid, checked, sound⟩ := run_isValid_trusted openSsl trusted message signature ()
      cases valid with
      | false => exact checked
      | true => exact (unverified (sound rfl)).elim
    · intro platform parse connection server secure _ helper enqueued
      obtain ⟨header, read, complete, checked⟩ := acceptMessage_checked openSsl
        (fun same => enqueued (by rw [same]))
      obtain ⟨signature, length⟩ := header_signature read
      refine ⟨header, read, signature, length, complete, ?_⟩
      obtain ⟨valid, answered, sound⟩ := run_isValid_trusted openSsl trusted
        (bodyBytes platform connection header) header.signature server
      simp only [verifySignature, EStateM.run_bind, EStateM.run_get, secure, if_true, helper,
        answered, EStateM.Result.ok.injEq, and_true] at checked
      exact sound checked

end

def negativeFinal : OpenSsl Unit where
  pemReadBioPubkey _ := some ()
  digestVerifyInit _ := 1
  digestVerifyUpdate _ _ := 1
  digestVerifyFinal _ _ _ := -1

theorem negativeFinal_passes :
    ¬ ∀ (Key : Type) (openSsl : OpenSsl Key) (pem : CString), SignatureGate openSsl pem := by
  intro gate
  have refused := (gate Unit negativeFinal (text "key")).isValid [] [] (by
    rintro ⟨_, _, _, _, _, finishes⟩
    simp [negativeFinal] at finishes)
  have passed : ((SignatureHelper.construct negativeFinal (text "key")).isValid negativeFinal
      [] []).run () = .ok true () := by rfl
  simp [passed] at refused

end SocketEvents
