import SocketEvents.TCPServerCore
import SocketEvents.WebsocketServerCore

/-!
Which configuration `ParseMessageAndEnqueue` consults on either transport. `TCPServer` declares
a `config` of its own, its constructor writes that one, and the base class's stays unwritten.
-/

namespace SocketEvents

open Execution

abbrev FirstMessage := EStateM.Result (Fault Exception Defect) EventStore MessageParseStatus

section
variable {Key : Type} (platform : Platform) (openSsl : OpenSsl Key) (config : Config)
  (json : Json)

def tcpFirstMessage : FirstMessage :=
  let server := TCPServer.construct openSsl config
  (parseMessageAndEnqueue platform server.serverConfig json).run server.store

def websocketFirstMessage : FirstMessage :=
  let server := WebsocketServer.construct config
  (parseMessageAndEnqueue platform server.config json).run server.store

def SameOutcome (first second : FirstMessage) : Prop :=
  (∃ status store, first = .ok status store ∧ second = .ok status store) ∨
    ∃ exception other store, first = .error (.thrown exception) store ∧
      second = .error (.thrown other) store

structure SameEnforcement : Prop where
  tcp : (TCPServer.construct openSsl config).serverConfig = some config
  websocket : (WebsocketServer.construct config).config = some config
  outcome : SameOutcome (tcpFirstMessage platform openSsl config json)
    (websocketFirstMessage platform config json)

theorem tcpFirstMessage_undefined :
    tcpFirstMessage platform openSsl config json = .error (.undefined .uninitialisedRead) {} :=
  rfl

/-- Every first message to a TCP server reads the unwritten pointer. -/
theorem never_sameEnforcement : ¬ SameEnforcement platform openSsl config json := by
  intro same
  rcases same.outcome with ⟨status, store, tcp, _⟩ | ⟨exception, _, store, tcp, _⟩
  · simp [tcpFirstMessage_undefined] at tcp
  · simp [tcpFirstMessage_undefined] at tcp

end

def pingMessage : Json :=
  .object [(text "args", .object []), (text "event", .string (text "e"))]

theorem pingMessage_differs : ¬ ∀ (Key : Type) platform (openSsl : OpenSsl Key) config json,
    config.secure = false → SameEnforcement platform openSsl config json := by
  intro same
  have tcp := (same Unit .x64 OpenSsl.rejecting { secure := false } pingMessage rfl).tcp
  simp [TCPServer.construct] at tcp

end SocketEvents
