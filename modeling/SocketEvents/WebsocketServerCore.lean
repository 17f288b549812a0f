import SocketEvents.ServerCore

/-!
The websocket server: the replies, and one session of `ServerRun`. A frame is what the client
sends and what the transport does with it. `json::parse` and `AsBuffer` are parameters.
-/

namespace SocketEvents

open Execution

structure WebsocketServer where
  running : Bool
  config : Option Config
  store : EventStore

/-- The body assigns the base class's pointer. -/
def WebsocketServer.construct (config : Config) : WebsocketServer where
  running := false
  config := some config
  store := {}

structure ServerResponse where
  success : Bool := false
  message : CString := []
  deriving DecidableEq, Repr

def ServerResponse.toJson (response : ServerResponse) : Json :=
  .object [(text "message", .string response.message), (text "success", .boolean response.success)]

/-- The conversion is to a string value, not to the text of the object. -/
def ServerResponse.asBuffer (response : ServerResponse) : Except Exception CString :=
  response.toJson.getString

/-- `room` says that the buffer has a byte left after the message, and `writeThrows` that the
reply to it does not go out. -/
structure WebsocketFrame where
  isText : Bool
  bytes : CString
  room : Bool := true
  writeThrows : Bool := false

structure WebsocketClient where
  frames : List WebsocketFrame
  acceptThrows : Bool := false
  handshakeThrows : Bool := false

structure WebsocketSession where
  server : WebsocketServer
  responses : List ServerResponse := []

namespace WebsocketServer

def onSessionStore {α : Type} (call : Exec Exception Defect EventStore α) :
    Exec Exception Defect WebsocketSession α := fun session =>
  match call.run session.server.store with
  | .ok value store => .ok value { session with server := { session.server with store } }
  | .error fault store => .error fault { session with server := { session.server with store } }

section
variable (platform : Platform) (parse : CString → Except Exception Json)
  (asBuffer : ServerResponse → Except Exception CString)

def write (frame : WebsocketFrame) (response : ServerResponse) :
    Exec Exception Defect WebsocketSession Unit := do
  let _ ← liftThrow (asBuffer response)
  if frame.writeThrows then raise .systemError
  else modify fun session => { session with responses := session.responses ++ [response] }

def terminate (frame : WebsocketFrame) : Exec Exception Defect WebsocketSession CString :=
  if frame.room then return frame.bytes else undefined .arrayOverrun

def replyTo (frame : WebsocketFrame) (status : MessageParseStatus) :
    Exec Exception Defect WebsocketSession Bool := do
  if status = .authFailed then
    write asBuffer frame { success := false, message := text "Auth failed" }
    modify fun session => { session with server := { session.server with running := false } }
    return false
  else
    write asBuffer frame { success := true }
    return true

def answerFrame (frame : WebsocketFrame) : Exec Exception Defect WebsocketSession Bool := do
  if frame.isText then
    let message ← terminate frame
    let json ← liftThrow (parse message)
    let session ← get
    let status ← onSessionStore (parseMessageAndEnqueue platform session.server.config json)
    replyTo asBuffer frame status
  else
    write asBuffer frame { success := false, message := text "Malformed message" }
    return true

/-- The client closes after the last of its frames, and the read throws. -/
def messageLoop : List WebsocketFrame → Exec Exception Defect WebsocketSession Unit
  | [] => raise .systemError
  | frame :: rest => do
      if ← answerFrame platform parse asBuffer frame then messageLoop rest
      else return ()

def serverRun (client : WebsocketClient) : Exec Exception Defect WebsocketSession Unit :=
  guarded Exception.isStd
    (do
      if client.acceptThrows then raise .systemError
      else if client.handshakeThrows then raise .systemError
      else messageLoop platform parse asBuffer client.frames)
    (return ())

end

end WebsocketServer

end SocketEvents
