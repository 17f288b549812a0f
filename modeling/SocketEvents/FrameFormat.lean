import SocketEvents.TCPServerRun

/-!
The frames the TCP server accepts, and the size of the buffer a body is read into.
-/

namespace SocketEvents

open Execution

def bufferContents (capacity : Nat) (body : CString) : CString :=
  body ++ List.replicate (capacity - body.length) 0

/-- The buffer is one byte longer than what is read into it, and that byte stays NUL. -/
structure BufferFits (platform : Platform) (dataLength : Int64) : Prop where
  room : platform.toSizeT dataLength.toInt < bufferCapacity platform dataLength
  bounded : (bufferCapacity platform dataLength : Int) ≤ maxBufferSize + 1
  exact : (bufferCapacity platform dataLength : Int) = dataLength.toInt + 1
  inside : ∀ (available : List UInt8) (throws : Bool),
    (socketRead (bufferCapacity platform dataLength) (platform.toSizeT dataLength.toInt)
      available throws).run () ≠ .error (.undefined .arrayOverrun) ()
  terminated : ∀ body : CString, body.length = platform.toSizeT dataLength.toInt →
    (bufferContents (bufferCapacity platform dataLength) body).getLast? = some 0

section
variable {platform : Platform}

theorem toSizeT_dataLength (platform : Platform) {dataLength : Int}
    (nonnegative : 0 ≤ dataLength) (small : dataLength ≤ maxBufferSize) :
    (platform.toSizeT dataLength : Int) = dataLength := by
  simp only [maxBufferSize] at small
  cases platform <;> simp only [Platform.toSizeT, Platform.sizeBits] <;> omega

theorem bufferCapacity_dataLength (platform : Platform) {dataLength : Int64}
    (nonnegative : 0 ≤ dataLength.toInt) (small : dataLength.toInt ≤ maxBufferSize) :
    bufferCapacity platform dataLength = platform.toSizeT dataLength.toInt + 1 := by
  have count := toSizeT_dataLength platform nonnegative small
  simp only [maxBufferSize] at small
  refine Nat.mod_eq_of_lt ?_
  cases platform <;> simp only [Platform.sizeBits] <;> omega

theorem socketRead_inside {σ : Type} {capacity count : Nat} (room : count ≤ capacity)
    (available : List UInt8) (throws : Bool) (state : σ) :
    (socketRead capacity count available throws).run state =
      if throws ∨ available.length < count then .error (.thrown .systemError) state
      else .ok (available.take count) state := by
  have fits : ¬ capacity < min count available.length := by omega
  cases throws with
  | true => rfl
  | false =>
      by_cases short : available.length < count <;> simp [socketRead, fits, short]

theorem bufferFits_of_nonnegative (platform : Platform) {dataLength : Int64}
    (nonnegative : 0 ≤ dataLength.toInt) (small : dataLength.toInt ≤ maxBufferSize) :
    BufferFits platform dataLength := by
  have count := toSizeT_dataLength platform nonnegative small
  have capacity := bufferCapacity_dataLength platform nonnegative small
  constructor
  · omega
  · omega
  · omega
  · intro available throws
    rw [socketRead_inside (by omega)]
    split <;> simp
  · intro body length
    have spare : bufferCapacity platform dataLength - body.length = 1 := by omega
    simp [bufferContents, spare]

end

theorem bufferFits_iff (platform : Platform) (dataLength : Int64)
    (admitted : dataLength.toInt ≤ maxBufferSize) :
    BufferFits platform dataLength ↔ 0 ≤ dataLength.toInt := by
  constructor
  · intro fits
    have room := fits.room
    have exact := fits.exact
    omega
  · intro nonnegative
    exact bufferFits_of_nonnegative platform nonnegative admitted

theorem bufferFits_iff_two : BufferFits .x86 2 :=
  (bufferFits_iff .x86 2 (by decide)).mpr (by decide)

/-- The length −1 passes the check, and the buffer for it has no byte at all. -/
theorem minusOne_overruns : ¬ ∀ platform (dataLength : Int64),
    dataLength.toInt ≤ maxBufferSize → BufferFits platform dataLength := by
  intro fits
  have room := (fits .x86 (-1) (by decide)).room
  have empty : bufferCapacity .x86 (-1) = 0 := by decide
  omega

/-- What the readme asks for: the magic string, the length of the body, a signature, and the
body; then anything. -/
def IsFrame (bytes body rest : CString) : Prop :=
  ∃ lengthField signature, bytes = eventMagicString ++ lengthField ++ signature ++ body ++ rest ∧
    lengthField.length = 8 ∧ signature.length = 384 ∧
    (Int64.ofNat (littleEndian lengthField)).toInt = body.length ∧
    (body.length : Int) ≤ maxBufferSize

def dataLengthField (bytes : CString) : Int64 :=
  Int64.ofNat (littleEndian ((bytes.drop 8).take 8))

def headerAt (bytes : CString) : EventMessageHeader where
  magicString := bytes.take 8
  dataLength := dataLengthField bytes
  signature := (bytes.drop 16).take 384

theorem header_of_bytes (bytes : CString) :
    Connection.header { bytes } =
      if bytes.length < headerSize then none else some (headerAt bytes) := by
  have parts : EventMessageHeader.ofBytes (bytes.take headerSize) = headerAt bytes := by
    simp [EventMessageHeader.ofBytes, headerAt, dataLengthField, headerSize, List.take_take,
      List.drop_take]
  by_cases short : bytes.length < headerSize
  · simp [Connection.header, short]
  · simp [Connection.header, short, parts]

theorem isFrame_of_header {bytes : CString} (long : ¬ bytes.length < headerSize)
    (magic : bytes.take 8 = eventMagicString)
    (small : (dataLengthField bytes).toInt ≤ maxBufferSize) {count : Nat}
    (length : (dataLengthField bytes).toInt = count)
    (complete : count ≤ (bytes.drop headerSize).length) :
    IsFrame bytes ((bytes.drop headerSize).take count) ((bytes.drop headerSize).drop count) := by
  have bodyLength : ((bytes.drop headerSize).take count).length = count :=
    List.length_take_of_le complete
  have front : bytes.take headerSize =
      bytes.take 8 ++ (bytes.drop 8).take 8 ++ (bytes.drop 16).take 384 := by
    rw [show headerSize = 8 + (8 + 384) from rfl, List.take_add, List.take_add, List.drop_drop,
      List.append_assoc]
  simp only [headerSize] at long
  refine ⟨(bytes.drop 8).take 8, (bytes.drop 16).take 384, ?_, ?_, ?_, ?_, ?_⟩
  · rw [← magic, ← front, List.append_assoc, List.take_append_drop, List.take_append_drop]
  · rw [List.length_take, List.length_drop]
    omega
  · rw [List.length_take, List.length_drop]
    omega
  · rw [bodyLength, ← length]
    rfl
  · rw [bodyLength, ← length]
    exact small

theorem header_of_isFrame {bytes body rest : CString} (frame : IsFrame bytes body rest) :
    ¬ bytes.length < headerSize ∧ bytes.take 8 = eventMagicString ∧
      (dataLengthField bytes).toInt = body.length ∧ (body.length : Int) ≤ maxBufferSize ∧
      bytes.drop headerSize = body ++ rest := by
  obtain ⟨lengthField, signature, split, fieldLength, signatureLength, length, small⟩ := frame
  have magicLength : eventMagicString.length = 8 := by decide
  have start : bytes = eventMagicString ++ (lengthField ++ (signature ++ (body ++ rest))) := by
    simp [split]
  have field : (bytes.drop 8).take 8 = lengthField := by
    rw [start, List.drop_left' magicLength, List.take_left' fieldLength]
  refine ⟨?_, ?_, ?_, small, ?_⟩
  · rw [start]
    simp only [List.length_append, magicLength, fieldLength, signatureLength, headerSize]
    omega
  · rw [start, List.take_left' magicLength]
  · rw [dataLengthField, field]
    exact length
  · have whole : (eventMagicString ++ lengthField ++ signature).length = headerSize := by
      simp [magicLength, fieldLength, signatureLength, headerSize]
    rw [show bytes = (eventMagicString ++ lengthField ++ signature) ++ (body ++ rest) by
      simp [split], List.drop_left' whole]

section
variable {Key : Type} (platform : Platform) (openSsl : OpenSsl Key)
  (parse : CString → Except Exception Json)

def Enqueues (config : Config) (json : Json) (before after : EventStore) : Prop :=
  ∃ status name args,
    (parseMessageAndEnqueue platform (some config) json).run before = .ok status after ∧
      before.Adds name args after

def CarriesEvent (config : Config) (bytes : CString) (before after : EventStore) : Prop :=
  ∃ body rest json, IsFrame bytes body rest ∧ parse (cStr body) = .ok json ∧
    Enqueues platform config json before after

def Contained {σ α : Type} (result : EStateM.Result (Fault Exception Defect) σ α) : Prop :=
  (∃ value after, result = .ok value after) ∨
    ∃ exception after, result = .error (.thrown exception) after ∧ exception.isStd = true

theorem enqueues_or_same (config : Config) (json : Json) (before : EventStore)
    (contained : Contained ((parseMessageAndEnqueue platform (some config) json).run before)) :
    (∃ after, Enqueues platform config json before after) ∨
      (∃ status, (parseMessageAndEnqueue platform (some config) json).run before =
        .ok status before) ∨
      ∃ exception, exception.isStd = true ∧
        (parseMessageAndEnqueue platform (some config) json).run before =
          .error (.thrown exception) before := by
  have outcome : ParseOutcome platform json before _ :=
    parseMessageAndEnqueue_outcome (some config) json before
  cases ran : (parseMessageAndEnqueue platform (some config) json).run before with
  | ok status after =>
      rw [ran] at outcome
      cases outcome with
      | sent name args _ _ => exact .inl ⟨_, _, name, args, ran, before.adds_send name args⟩
      | refused status _ => exact .inr (.inl ⟨status, rfl⟩)
  | error fault after =>
      rw [ran] at outcome contained
      cases outcome
      rcases contained with ⟨_, _, returned⟩ | ⟨exception, _, threw, std⟩
      · simp at returned
      · simp only [EStateM.Result.error.injEq] at threw
        exact .inr (.inr ⟨exception, std, by rw [threw.1]⟩)

def enqueueBody (body : CString) : Exec Exception Defect (TCPServer Key) Unit := do
  let json ← liftThrow (parse (cStr body))
  let server ← get
  let _ ← onStore (parseMessageAndEnqueue platform server.serverConfig json)

theorem run_enqueueBody (body : CString) (server : TCPServer Key) :
    (enqueueBody platform parse body).run server =
      match parse (cStr body) with
      | .error exception => .error (.thrown exception) server
      | .ok json =>
          match (parseMessageAndEnqueue platform server.serverConfig json).run server.store with
          | .ok _ store => .ok () { server with store }
          | .error fault store => .error fault { server with store } := by
  cases parsed : parse (cStr body) with
  | error exception => simp [enqueueBody, parsed]
  | ok json =>
      simp only [enqueueBody, parsed, EStateM.run_bind, run_liftThrow_ok, EStateM.run_get]
      simp only [onStore, EStateM.run]
      cases parseMessageAndEnqueue platform server.serverConfig json server.store <;> rfl

theorem run_readBody {bytes : CString} {server : TCPServer Key} {header : EventMessageHeader}
    (secure : server.config.secure = false) (nonnegative : 0 ≤ header.dataLength.toInt)
    (small : header.dataLength.toInt ≤ maxBufferSize) :
    (readBody platform openSsl parse { bytes } header).run server =
      if (bytes.drop headerSize).length < platform.toSizeT header.dataLength.toInt then
        .error (.thrown .systemError) server
      else (enqueueBody platform parse (bodyBytes platform { bytes } header)).run server := by
  have capacity := bufferCapacity_dataLength platform nonnegative small
  have read := socketRead_inside (by omega : platform.toSizeT header.dataLength.toInt ≤
    bufferCapacity platform header.dataLength) (bytes.drop headerSize) false server
  have verified : ∀ body, (verifySignature openSsl header body).run server = .ok true server := by
    intro body
    simp [verifySignature, secure]
  by_cases short : (bytes.drop headerSize).length < platform.toSizeT header.dataLength.toInt
  · rw [if_pos (.inr short)] at read
    simp only [readBody, EStateM.run_bind, read, if_pos short]
  · rw [if_neg (by simp only [Bool.false_eq_true, false_or]; exact short)] at read
    simp only [readBody, EStateM.run_bind, read, verified, if_neg short, if_true]
    rfl

theorem run_acceptFrame {bytes body rest : CString} {server : TCPServer Key}
    (running : server.running = true) (secure : server.config.secure = false)
    (frame : IsFrame bytes body rest) :
    (acceptMessageHeaderAndBody platform openSsl parse { bytes }).run server =
      (guarded Exception.isStd (enqueueBody platform parse body) acceptorCancel).run server := by
  obtain ⟨long, magic, length, small, after⟩ := header_of_isFrame frame
  have lengthEq : (headerAt bytes).dataLength.toInt = body.length := length
  have count := toSizeT_dataLength platform (by omega) (lengthEq ▸ small)
  have whole : platform.toSizeT (headerAt bytes).dataLength.toInt = body.length := by omega
  have capacity := bufferCapacity_dataLength platform (by omega) (lengthEq ▸ small)
  have contained : ¬ BodyEscapes platform { bytes } (headerAt bytes) := by
    simp only [maxBufferSize] at small
    simp only [BodyEscapes, Bool.false_eq_true, false_or, true_and, Nat.not_le]
    cases platform <;> simp only [Platform.sizeBits] <;> omega
  have same : bodyBytes platform { bytes } (headerAt bytes) = body := by
    rw [bodyBytes, whole, after, List.take_left' rfl]
  have read : (readBody platform openSsl parse { bytes } (headerAt bytes)).run server = _ :=
    run_readBody platform openSsl parse secure (by omega) (lengthEq ▸ small)
  rw [if_neg (by rw [after, List.length_append]; omega), same] at read
  rw [run_acceptMessage, header_of_bytes, if_neg long]
  simp only [Bool.false_eq_true, if_false, running, if_true]
  rw [run_acceptBody platform openSsl parse ⟨magic, lengthEq ▸ small⟩ contained]
  simp only [Bool.false_eq_true, if_false]
  rw [run_guarded, run_guarded, read]

theorem run_acceptFrame_refused {bytes : CString} {server : TCPServer Key}
    (running : server.running = true) (secure : server.config.secure = false)
    (nonnegative : 16 ≤ bytes.length → 0 ≤ (dataLengthField bytes).toInt)
    (refused : ¬ ∃ body rest, IsFrame bytes body rest) :
    (acceptMessageHeaderAndBody platform openSsl parse { bytes }).run server =
      .ok () server := by
  rw [run_acceptMessage, header_of_bytes]
  by_cases short : bytes.length < headerSize
  · simp [short]
  · simp only [Bool.false_eq_true, if_false, if_neg short, running, if_true]
    by_cases admitted : (headerAt bytes).Admitted
    · obtain ⟨magic, small⟩ := admitted
      have present : 0 ≤ (headerAt bytes).dataLength.toInt :=
        nonnegative (by simp only [headerSize] at short; omega)
      have count := toSizeT_dataLength platform present small
      have capacity := bufferCapacity_dataLength platform present small
      have contained : ¬ BodyEscapes platform { bytes } (headerAt bytes) := by
        simp only [maxBufferSize] at small
        simp only [BodyEscapes, Bool.false_eq_true, false_or, true_and, Nat.not_le]
        cases platform <;> simp only [Platform.sizeBits] <;> omega
      have truncated : (bytes.drop headerSize).length <
          platform.toSizeT (headerAt bytes).dataLength.toInt := by
        refine Nat.not_le.mp fun complete => refused ?_
        exact ⟨_, _, isFrame_of_header short magic small count.symm complete⟩
      rw [run_acceptBody platform openSsl parse ⟨magic, small⟩ contained]
      simp only [Bool.false_eq_true, if_false]
      rw [run_guarded, run_readBody platform openSsl parse secure present small, if_pos truncated]
      rfl
    · exact run_acceptBody_refused platform openSsl parse admitted

theorem acceptMessage_carries {bytes : CString} {server : TCPServer Key} {store : EventStore}
    (running : server.running = true) (secure : server.config.secure = false)
    (configured : server.serverConfig = some server.config)
    (carries : CarriesEvent platform parse server.config bytes server.store store) :
    (acceptMessageHeaderAndBody platform openSsl parse { bytes }).run server =
      .ok () { server with store } := by
  obtain ⟨body, rest, json, frame, parsed, status, _, _, ran, _⟩ := carries
  rw [run_acceptFrame platform openSsl parse running secure frame, run_guarded,
    run_enqueueBody, configured]
  simp only [parsed, ran]

theorem acceptMessage_ignores {bytes : CString} {server : TCPServer Key}
    (running : server.running = true) (secure : server.config.secure = false)
    (configured : server.serverConfig = some server.config)
    (nonnegative : 16 ≤ bytes.length → 0 ≤ (dataLengthField bytes).toInt)
    (parseThrows : ∀ body exception, parse body = .error exception → exception.isStd = true)
    (contained : ∀ body json, parse body = .ok json →
      Contained ((parseMessageAndEnqueue platform (some server.config) json).run server.store))
    (nothing : ¬ ∃ store, CarriesEvent platform parse server.config bytes server.store store) :
    (acceptMessageHeaderAndBody platform openSsl parse { bytes }).run server =
      .ok () server := by
  by_cases framed : ∃ body rest, IsFrame bytes body rest
  · obtain ⟨body, rest, frame⟩ := framed
    rw [run_acceptFrame platform openSsl parse running secure frame, run_guarded,
      run_enqueueBody]
    cases parsed : parse (cStr body) with
    | error exception => simp [parseThrows _ _ parsed, acceptorCancel]
    | ok json =>
        rcases enqueues_or_same platform server.config json server.store
          (contained _ _ parsed) with ⟨store, enqueues⟩ | ⟨status, ran⟩ | ⟨exception, std, ran⟩
        · exact (nothing ⟨store, body, rest, json, frame, parsed, enqueues⟩).elim
        · rw [← configured] at ran
          simp only [ran]
        · rw [← configured] at ran
          simp [ran, std, acceptorCancel]
  · exact run_acceptFrame_refused platform openSsl parse running secure nonnegative framed

theorem acceptMessage_enqueues_iff {bytes : CString} {server : TCPServer Key}
    (running : server.running = true) (secure : server.config.secure = false)
    (configured : server.serverConfig = some server.config)
    (nonnegative : 16 ≤ bytes.length → 0 ≤ (dataLengthField bytes).toInt)
    (parseThrows : ∀ body exception, parse body = .error exception → exception.isStd = true)
    (contained : ∀ body json, parse body = .ok json →
      Contained ((parseMessageAndEnqueue platform (some server.config) json).run server.store)) :
    ∃ after, (acceptMessageHeaderAndBody platform openSsl parse { bytes }).run server =
        .ok () after ∧
      (after.store.eventQueue.contents ≠ server.store.eventQueue.contents ↔
        ∃ store, CarriesEvent platform parse server.config bytes server.store store) ∧
      (∀ store, CarriesEvent platform parse server.config bytes server.store store →
        after = { server with store } ∧ ∃ name args, server.store.Adds name args store) ∧
      ((¬ ∃ store, CarriesEvent platform parse server.config bytes server.store store) →
        after = server) := by
  by_cases something :
      ∃ store, CarriesEvent platform parse server.config bytes server.store store
  · obtain ⟨store, carries⟩ := something
    have appends : ∀ store', CarriesEvent platform parse server.config bytes server.store store' →
        { server with store } = { server with store := store' } ∧
          ∃ name args, server.store.Adds name args store' := by
      intro store' carries'
      have ran := acceptMessage_carries platform openSsl parse running secure configured carries
      rw [acceptMessage_carries platform openSsl parse running secure configured carries'] at ran
      simp only [EStateM.Result.ok.injEq, true_and] at ran
      obtain ⟨_, _, _, _, _, _, name, args, _, adds⟩ := carries'
      exact ⟨ran.symm, name, args, adds⟩
    obtain ⟨_, _, ⟨_, _, _, appended, _⟩, _⟩ := (appends store carries).2
    refine ⟨{ server with store },
      acceptMessage_carries platform openSsl parse running secure configured carries,
      ⟨fun _ => ⟨store, carries⟩, fun _ => ?_⟩, appends,
      fun nothing => (nothing ⟨store, carries⟩).elim⟩
    simp [appended]
  · refine ⟨server, acceptMessage_ignores platform openSsl parse running secure configured
      nonnegative parseThrows contained something, ?_,
      fun store carries => (something ⟨store, carries⟩).elim, fun _ => rfl⟩
    simp [something]

end

def greetingText : CString := text "\x7b\"event\":\"e\",\"args\":\x7b\x7d\x7d"

def greetingBytes : CString :=
  eventMagicString ++ [23, 0, 0, 0, 0, 0, 0, 0] ++ List.replicate 384 0 ++ greetingText ++ [65, 66]

def greeting : Json := .object [(text "args", .object []), (text "event", .string (text "e"))]

def parseGreeting (body : CString) : Except Exception Json :=
  if body = greetingText then .ok greeting else .error .parseError

def plainServer : TCPServer Unit where
  running := true
  config := { secure := false }
  serverConfig := some { secure := false }
  sigHelper := .construct OpenSsl.rejecting []
  socketOpen := true
  store := {}

theorem greetingBytes_frame : IsFrame greetingBytes greetingText [65, 66] :=
  ⟨[23, 0, 0, 0, 0, 0, 0, 0], List.replicate 384 0, rfl, rfl, List.length_replicate, by decide,
    by decide⟩

theorem acceptMessage_greeting :
    ∃ after, (acceptMessageHeaderAndBody .x86 OpenSsl.rejecting parseGreeting
        { bytes := greetingBytes }).run plainServer = .ok () after ∧
      after.store.eventQueue.contents = [{ name := text "e", args := some 0 }] ∧
      ∃ name args, EventStore.Adds name args {} after.store := by
  have parsed : ∀ body, parseGreeting body = .ok greeting ∨
      parseGreeting body = .error .parseError := by
    intro body
    unfold parseGreeting
    split
    · exact .inl rfl
    · exact .inr rfl
  have parseThrows : ∀ body exception, parseGreeting body = .error exception →
      exception.isStd = true := by
    intro body exception failed
    rcases parsed body with same | same
    · simp [same] at failed
    · rw [same] at failed
      exact Except.error.inj failed ▸ rfl
  have contained : ∀ body json, parseGreeting body = .ok json →
      Contained ((parseMessageAndEnqueue .x86 (some plainServer.config) json).run
        plainServer.store) := by
    intro body json read
    rcases parsed body with same | same
    · rw [same] at read
      exact Except.ok.inj read ▸ .inl ⟨_, _, rfl⟩
    · simp [same] at read
  have carries : CarriesEvent .x86 parseGreeting plainServer.config greetingBytes
      plainServer.store (EventStore.send (text "e") (.mk []) {}) :=
    ⟨greetingText, [65, 66], greeting, greetingBytes_frame, rfl, .ok, text "e", .mk [], rfl,
      EventStore.adds_send _ _ _⟩
  have nonnegative : 16 ≤ greetingBytes.length → 0 ≤ (dataLengthField greetingBytes).toInt :=
    fun _ => by decide
  obtain ⟨after, ran, _, appends, _⟩ := acceptMessage_enqueues_iff .x86 OpenSsl.rejecting
    parseGreeting rfl rfl rfl nonnegative parseThrows contained
  obtain ⟨same, adds⟩ := appends _ carries
  exact ⟨after, ran, by rw [same]; rfl, by rw [same]; exact adds⟩

end SocketEvents
