import SocketEvents.Admission
import SocketEvents.ConfigFormat
import SocketEvents.ExtensionLoad
import SocketEvents.TCPConnection
import SocketEvents.WebsocketServerCore

/-!
The configuration that a load leaves in force, and what it takes for tokens and signatures to be
asked for.
-/

namespace SocketEvents

open Execution

section
variable (parse : CString → Except Exception Json) (contents publicKey : Option CString)

def LoadEnvironment.reading (constructServer startServer : Except Exception Unit) :
    LoadEnvironment where
  configExists := .ok contents.isSome
  configParsed :=
    match contents with
    | some contents => parse contents >>= Config.ofJson
    | none => .error .parseError
  publicKey := publicKey
  constructServer := constructServer
  startServer := startServer

def Config.withKey (config : Config) : Config :=
  if config.secure && !config.websockets then (config.loadPEMPublicKey publicKey).2 else config

def Config.inForce : Config :=
  match contents with
  | none => {}
  | some contents =>
      match parse contents >>= Config.ofJson with
      | .ok config => config.withKey publicKey
      | .error _ => {}

/-- The file is there, is JSON, and its members that are read have the right kinds. -/
def FileGives (json : Json) : Prop :=
  ∃ file, contents = some file ∧ parse file = .ok json ∧ Config.Accepted json

end

namespace Host

def Configured (config : Config) (host : Host) : Prop := host.extension.config = config

section
variable (config : Config)

theorem preserves_print_config (toPrint : CString) :
    Preserves (Configured config) (print toPrint) := .modify fun _ same => same

theorem preserves_announce (other : Config) : Preserves (Configured config) (announce other) := by
  refine .bind (preserves_print_config config _) fun _ => ?_
  split
  · exact preserves_print_config config _
  · exact .pure _

theorem preserves_startServer (environment : LoadEnvironment) :
    Preserves (Configured config) (startServer environment) :=
  .bind (.of_state fun _ => rfl) fun _ => .bind (preserves_print_config config _) fun _ =>
    .bind (.liftThrow _) fun _ => .bind (.modify fun _ same => same) fun _ =>
      .bind (.liftThrow _) fun _ => .bind (.modify fun _ same => same) fun _ =>
        preserves_announce config _

end

theorem loadKey_configured (environment : LoadEnvironment) (host : Host) :
    ∃ after, (loadKey environment).run host = .ok () after ∧
      Configured (host.extension.config.withKey environment.publicKey) after := by
  simp only [loadKey, EStateM.run_bind, EStateM.run_get, Config.withKey]
  split
  · cases environment.publicKey with
    | some key => exact ⟨_, rfl, rfl⟩
    | none => exact ⟨_, rfl, rfl⟩
  · exact ⟨host, rfl, rfl⟩

section
variable {parse : CString → Except Exception Json} {host : Host} (throwsStd : ThrowsStd parse)
  (publicKey : Option CString) (constructServer startServer' : Except Exception Unit)
include throwsStd

theorem parseConfig_configured (file : CString) (fresh : Configured {} host) :
    ∃ middle, (parseConfig (.reading parse (some file) publicKey constructServer startServer')).run
        host = .ok () middle ∧
      middle.extension.config.withKey publicKey =
        Config.inForce parse (some file) publicKey := by
  rw [parseConfig, run_guarded]
  cases parsed : parse file >>= Config.ofJson with
  | ok config =>
      exact ⟨host.setConfig config, by simp [LoadEnvironment.reading, parsed],
        by simp [setConfig, Config.inForce, parsed]⟩
  | error exception =>
      have std : exception.isStd = true :=
        Config.bind_raises (throwsStd file) Config.ofJson_raises exception parsed
      have kept : Configured {} _ := preserves_print_config {}
        (text "Failed to parse config, defaults will be used.") host fresh
      obtain ⟨middle, ran, _⟩ :=
        run_print (text "Failed to parse config, defaults will be used.") host
      rw [ran] at kept
      refine ⟨middle, by simpa [LoadEnvironment.reading, parsed, std] using ran, ?_⟩
      rw [show middle.extension.config = {} from kept]
      simp only [Config.inForce, parsed]
      rfl

theorem tryLoadConfig_configured (contents : Option CString) (fresh : Configured {} host) :
    ∃ after, (tryLoadConfig (.reading parse contents publicKey constructServer startServer')).run
        host = .ok true after ∧ Configured (Config.inForce parse contents publicKey) after := by
  rw [tryLoadConfig, run_guarded, loadConfig]
  cases contents with
  | none =>
      have kept : Configured {} _ := preserves_print_config {} (text "Config '" ++ configName ++
        text "' not present, defaults will be used.") host fresh
      obtain ⟨after, ran, _⟩ := run_print (text "Config '" ++ configName ++
        text "' not present, defaults will be used.") host
      rw [ran] at kept
      refine ⟨after, ?_, kept⟩
      simp only [LoadEnvironment.reading, Option.isSome_none, EStateM.run_bind, run_liftThrow_ok,
        Bool.false_eq_true, if_false, ran]
      rfl
  | some file =>
      obtain ⟨middle, parsed, given⟩ := parseConfig_configured throwsStd publicKey constructServer
        startServer' file fresh
      obtain ⟨after, loaded, configured⟩ := loadKey_configured
        (.reading parse (some file) publicKey constructServer startServer') middle
      refine ⟨after, ?_, given ▸ configured⟩
      have found : (LoadEnvironment.reading parse (some file) publicKey constructServer
        startServer').configExists = .ok true := rfl
      simp only [found, EStateM.run_bind, run_liftThrow_ok, if_true, parsed, loaded]
      rfl

theorem sdkOnLoad_configured (contents : Option CString) (fresh : Configured {} host) :
    Configured (Config.inForce parse contents publicKey) (resultState ((sdkOnLoad (.reading parse
      contents publicKey constructServer startServer')).run host)) := by
  obtain ⟨middle, ran, configured⟩ :=
    tryLoadConfig_configured throwsStd publicKey constructServer startServer' contents fresh
  have served : Preserves (Configured (Config.inForce parse contents publicKey)) (do
      modify fun host => { host with hooked := true }
      startServer (.reading parse contents publicKey constructServer startServer')
      return true : Call Bool) :=
    .bind (.modify fun _ same => same) fun _ => .bind (preserves_startServer _ _) fun _ => .pure _
  rw [sdkOnLoad, EStateM.run_bind, ran]
  exact served middle configured

end

end Host

/-! What is asked of a message -/

/-- Everything beside its token. -/
def NamesEvent (platform : Platform) (message : Json) : Prop :=
  (∃ name, message.member (text "event") = .string name) ∧
    message.contains (text "args") = true ∧
    ∃ args, ofJson platform (message.member (text "args")) = .ok args

theorem parseMessage_enqueues_iff (platform : Platform) (config : Config) (message : Json)
    (store : EventStore) :
    (resultState ((parseMessageAndEnqueue platform (some config) message).run
        store)).eventQueue.contents ≠ store.eventQueue.contents ↔
      Authorised config.tokens message ∧ NamesEvent platform message := by
  rcases (parseMessage_outcome platform config message store).sent_iff with
    ⟨name, args, admissible, _, _, ran⟩ | ⟨refused, same⟩
  · refine iff_of_true ?_ ⟨admissible.authorised, admissible.named, admissible.present,
      admissible.constructs⟩
    rw [ran]
    simp [resultState, EventStore.send, ConcurrentQueue.enqueue]
  · refine iff_of_false (by simp [same]) ?_
    rintro ⟨authorised, named, present, constructs⟩
    exact refused ⟨authorised, named, present, constructs⟩

section
variable {Key : Type} {openSsl : OpenSsl Key} {config : Config} {body signature : CString}
  {server : TCPServer Key} {result : EStateM.Result (Fault Exception Defect) (TCPServer Key) Bool}

theorem Checked.passes_iff (checked : Checked openSsl config body signature server result) :
    result = .ok true server ↔ PassesCheck openSsl config body signature := by
  cases checked with
  | unwritten secure empty => exact iff_of_false (by simp) fun passes => (passes secure).1 empty
  | refused _ fails => exact iff_of_false (by simp) fails
  | passed _ passes => exact iff_of_true rfl passes

theorem Checked.unwritten_iff (checked : Checked openSsl config body signature server result) :
    result = .error (.undefined .uninitialisedRead) server ↔
      config.secure = true ∧ config.publicKeyPem = [] := by
  cases checked with
  | unwritten secure empty => exact iff_of_true rfl ⟨secure, empty⟩
  | refused written _ => exact iff_of_false (by simp) written
  | passed written _ => exact iff_of_false (by simp) written

end

theorem valueOr_false_iff {json : Json} {key : CString} {value : Bool}
    (read : json.valueOr Json.getBool key true = .ok value) :
    value = false ↔ json.member key = .boolean false := by
  cases json with
  | object members =>
      simp only [Json.valueOr, Json.member] at read ⊢
      cases found : AssocMap.find key members with
      | none =>
          simp only [found, Except.ok.injEq] at read
          simp [← read]
      | some member =>
          simp only [found] at read
          cases member <;> simp_all [Json.getBool]
  | _ => simp [Json.valueOr] at read

section
variable (publicKey : Option CString) (config : Config)

@[simp] theorem withKey_websockets : (config.withKey publicKey).websockets = config.websockets := by
  unfold Config.withKey
  split
  · cases publicKey <;> rfl
  · rfl

@[simp] theorem withKey_tokens : (config.withKey publicKey).tokens = config.tokens := by
  unfold Config.withKey
  split
  · cases publicKey <;> rfl
  · rfl

variable {config} in
theorem passesCheck_withKey (tcp : config.websockets = false) {Key : Type}
    (openSsl : OpenSsl Key) (body signature : CString) :
    PassesCheck openSsl (config.withKey publicKey) body signature ↔
      (config.secure = true → ∀ pem, publicKey = some pem →
        openSsl.Accepts pem body signature) := by
  cases secure : config.secure with
  | false => simp [PassesCheck, Config.withKey, secure]
  | true =>
      cases publicKey with
      | none => simp [PassesCheck, Config.withKey, Config.loadPEMPublicKey, secure, tcp]
      | some pem => simp [PassesCheck, Config.withKey, Config.loadPEMPublicKey, secure, tcp]

variable {config} in
theorem unwritten_withKey (tcp : config.websockets = false) :
    (config.withKey publicKey).secure = true ∧ (config.withKey publicKey).publicKeyPem = [] ↔
      config.secure = true ∧ publicKey = some [] := by
  cases secure : config.secure with
  | false => simp [Config.withKey, secure]
  | true =>
      cases publicKey with
      | none => simp [Config.withKey, Config.loadPEMPublicKey, secure, tcp]
      | some pem => simp [Config.withKey, Config.loadPEMPublicKey, secure, tcp]

end

theorem tokens_read {json : Json} {tokens : List CString}
    (read : json.valueOr Json.getStrings (text "tokens") [] = .ok tokens) :
    json.member (text "tokens") = .array (tokens.map .string) ∨
      tokens = [] ∧ ∀ listed, json.member (text "tokens") ≠ .array listed := by
  cases json with
  | object members =>
      simp only [Json.valueOr, Json.member] at read ⊢
      cases found : AssocMap.find (text "tokens") members with
      | none =>
          simp only [found, Except.ok.injEq] at read
          exact .inr ⟨read.symm, by simp⟩
      | some member =>
          simp only [found] at read
          exact .inl (Config.getStrings_ok_iff.mp read)
  | _ => simp [Json.valueOr] at read

theorem authorised_iff {json : Json} {tokens : List CString}
    (read : json.valueOr Json.getStrings (text "tokens") [] = .ok tokens) (message : Json) :
    Authorised tokens message ↔ ∀ listed, json.member (text "tokens") = .array listed →
      listed ≠ [] → message.member (text "token") ∈ listed := by
  rcases tokens_read read with listed | ⟨rfl, absent⟩
  · simp only [listed, Json.array.injEq, forall_eq', List.mem_map, ne_eq, List.map_eq_nil_iff]
    constructor
    · rintro (none | ⟨token, listed, given⟩) asked
      · exact absurd none asked
      · exact ⟨token, listed, given.symm⟩
    · intro given
      by_cases none : tokens = []
      · exact .inl none
      · obtain ⟨token, listed, same⟩ := given none
        exact .inr ⟨token, listed, same.symm⟩
  · exact iff_of_true (.inl rfl) fun listed present => absurd present (absent listed)

section
variable (parse : CString → Except Exception Json) (contents publicKey : Option CString)

theorem inForce_cases :
    ((∀ json, ¬ FileGives parse contents json) ∧
      Config.inForce parse contents publicKey = {}) ∨
    ∃ json config, (∀ other, FileGives parse contents other ↔ other = json) ∧
      Config.Reads json config ∧ Config.inForce parse contents publicKey =
        config.withKey publicKey := by
  cases contents with
  | none => exact .inl ⟨by simp [FileGives], rfl⟩
  | some file =>
      simp only [FileGives, Option.some.injEq, exists_eq_left', Config.inForce,
        ← Config.ofJson_accepts_iff]
      cases parsed : parse file with
      | error exception => exact .inl ⟨by simp, rfl⟩
      | ok json =>
          cases read : Config.ofJson json with
          | error exception =>
              refine .inl ⟨?_, ?_⟩
              · simp [read]
              · simp [bind, Except.bind, read]
          | ok config =>
              refine .inr ⟨json, config, fun other => ?_, Config.ofJson_ok_iff.mp read, ?_⟩
              · constructor
                · rintro ⟨same, _⟩
                  exact (Except.ok.inj same).symm
                · rintro rfl
                  exact ⟨rfl, config, read⟩
              · simp [bind, Except.bind, read]

theorem inForce_websockets_iff :
    (Config.inForce parse contents publicKey).websockets = false ↔
      ∃ json, FileGives parse contents json ∧
        json.member (text "websockets") = .boolean false := by
  rcases inForce_cases parse contents publicKey with ⟨nothing, defaults⟩ |
    ⟨json, read, only, reads, given⟩
  · simp [defaults, nothing]
  · simp only [only, exists_eq_left, given, withKey_websockets]
    exact valueOr_false_iff reads.websockets

theorem inForce_authorised_iff (message : Json) :
    Authorised (Config.inForce parse contents publicKey).tokens message ↔
      ∀ json, FileGives parse contents json → ∀ listed,
        json.member (text "tokens") = .array listed → listed ≠ [] →
        message.member (text "token") ∈ listed := by
  rcases inForce_cases parse contents publicKey with ⟨nothing, defaults⟩ |
    ⟨json, read, only, reads, given⟩
  · simp [defaults, nothing, Authorised]
  · simp only [only, forall_eq, given, withKey_tokens]
    exact authorised_iff reads.tokens message

variable {parse contents publicKey}
  (tcp : (Config.inForce parse contents publicKey).websockets = false)
include tcp

theorem inForce_tcp : ∃ json read, (∀ other, FileGives parse contents other ↔ other = json) ∧
    Config.Reads json read ∧ read.websockets = false ∧
    Config.inForce parse contents publicKey = read.withKey publicKey := by
  rcases inForce_cases parse contents publicKey with ⟨_, defaults⟩ |
    ⟨json, read, only, reads, given⟩
  · simp [defaults] at tcp
  · rw [given, withKey_websockets] at tcp
    exact ⟨json, read, only, reads, tcp, given⟩

theorem inForce_passesCheck_iff {Key : Type} (openSsl : OpenSsl Key) (body signature : CString) :
    PassesCheck openSsl (Config.inForce parse contents publicKey) body signature ↔
      ∀ json, FileGives parse contents json → json.member (text "secure") ≠ .boolean false →
        ∀ pem, publicKey = some pem → openSsl.Accepts pem body signature := by
  obtain ⟨json, read, only, reads, websockets, given⟩ := inForce_tcp tcp
  simp only [only, forall_eq, given]
  rw [passesCheck_withKey publicKey websockets, ← Bool.not_eq_false, ne_eq,
    ← valueOr_false_iff reads.secure]

theorem inForce_unwritten_iff :
    (Config.inForce parse contents publicKey).secure = true ∧
        (Config.inForce parse contents publicKey).publicKeyPem = [] ↔
      ∃ json, FileGives parse contents json ∧ json.member (text "secure") ≠ .boolean false ∧
        publicKey = some [] := by
  obtain ⟨json, read, only, reads, websockets, given⟩ := inForce_tcp tcp
  simp only [only, exists_eq_left, given]
  rw [unwritten_withKey publicKey websockets, ← Bool.not_eq_false, ne_eq,
    ← valueOr_false_iff reads.secure]

omit tcp

variable (parse contents publicKey)

/-- Each member of the configuration is in force only if the whole file is accepted. A key that
cannot be opened turns the check of signatures off, and one that is empty is never written. -/
theorem load_enforces (throwsStd : ThrowsStd parse)
    (constructServer startServer : Except Exception Unit) (host : Host)
    (fresh : host.extension.config = {}) :
    let config := (resultState ((Host.sdkOnLoad (.reading parse contents publicKey constructServer
      startServer)).run host)).extension.config
    (config.websockets = false ↔ ∃ json, FileGives parse contents json ∧
      json.member (text "websockets") = .boolean false) ∧
    (config.websockets = true → ∀ platform message store,
      (resultState ((parseMessageAndEnqueue platform (WebsocketServer.construct config).config
          message).run store)).eventQueue.contents ≠ store.eventQueue.contents ↔
        (∀ json, FileGives parse contents json → ∀ listed,
          json.member (text "tokens") = .array listed → listed ≠ [] →
          message.member (text "token") ∈ listed) ∧ NamesEvent platform message) ∧
    (config.websockets = false → ∀ (Key : Type) (openSsl : OpenSsl Key)
        (header : EventMessageHeader) (body : CString),
      let server := TCPServer.construct openSsl config
      ((verifySignature openSsl header body).run server = .ok true server ↔
        ∀ json, FileGives parse contents json → json.member (text "secure") ≠ .boolean false →
          ∀ pem, publicKey = some pem → openSsl.Accepts pem body header.signature) ∧
      ((verifySignature openSsl header body).run server =
          .error (.undefined .uninitialisedRead) server ↔
        ∃ json, FileGives parse contents json ∧ json.member (text "secure") ≠ .boolean false ∧
          publicKey = some [])) := by
  intro config
  have same : config = Config.inForce parse contents publicKey :=
    Host.sdkOnLoad_configured throwsStd publicKey constructServer startServer contents fresh
  rw [same]
  refine ⟨inForce_websockets_iff .., fun _ platform message store => ?_,
    fun tcp Key openSsl header body => ?_⟩
  · rw [← inForce_authorised_iff parse contents publicKey message]
    exact parseMessage_enqueues_iff platform _ message store
  · have constructed : AsConstructed openSsl (Config.inForce parse contents publicKey)
        (TCPServer.construct openSsl (Config.inForce parse contents publicKey)) := ⟨rfl, rfl, rfl⟩
    have checked : Checked openSsl _ body header.signature _ _ :=
      verifySignature_checked constructed body
    exact ⟨checked.passes_iff.trans (inForce_passesCheck_iff tcp openSsl body header.signature),
      checked.unwritten_iff.trans (inForce_unwritten_iff tcp)⟩

end

def mistypedFile : Json :=
  .object [(text "port", .string (text "25570")),
    (text "tokens", .array [.string (text "secret")])]

def tokenlessMessage : Json :=
  .object [(text "args", .object []), (text "event", .string (text "score"))]

/-- The port is a string: the token beside it is not asked for. -/
theorem load_enforces_mistyped : (resultState ((parseMessageAndEnqueue .x86
      (WebsocketServer.construct (resultState ((Host.sdkOnLoad (.reading (fun _ => .ok mistypedFile)
        (some []) none (.ok ()) (.ok ()))).run { extension := { config := {} } })).extension.config
        ).config tokenlessMessage).run {})).eventQueue.contents ≠ [] := by
  have enforced := load_enforces (fun _ => .ok mistypedFile) (some []) none (by simp [ThrowsStd])
    (.ok ()) (.ok ()) { extension := { config := {} } } rfl
  have refused : ∀ json, ¬ FileGives (fun _ => .ok mistypedFile) (some []) json := by
    rintro json ⟨_, _, parsed, members, same, kinds⟩
    obtain rfl : mistypedFile = json := Except.ok.inj parsed
    cases same
    have port := kinds (text "port", Json.isArithmetic) (by simp [Config.fields]) _ rfl
    cases port
  have websockets := (Bool.not_eq_false _).mp fun tcp => by
    obtain ⟨json, gives, _⟩ := enforced.1.mp tcp
    exact refused json gives
  refine (enforced.2.1 websockets .x86 tokenlessMessage {}).mpr ⟨fun json gives => ?_, ?_⟩
  · exact (refused json gives).elim
  · exact ⟨⟨_, rfl⟩, rfl, _, rfl⟩

end SocketEvents
