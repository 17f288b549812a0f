import SocketEvents.ServerCore

/-!
The TCP server: the signature helper, the message header, and the accept loop. A connection is
what one client sends and where the calls on its socket throw. `json::parse` and OpenSSL are
parameters.
-/

namespace SocketEvents

open Execution

structure OpenSsl (Key : Type) where
  pemReadBioPubkey : CString → Option Key
  digestVerifyInit : Key → Int
  digestVerifyUpdate : Key → CString → Int
  digestVerifyFinal : Key → CString → CString → Int

def OpenSsl.rejecting : OpenSsl Unit where
  pemReadBioPubkey _ := none
  digestVerifyInit _ := 0
  digestVerifyUpdate _ _ := 0
  digestVerifyFinal _ _ _ := 0

/-- `publicKey` is `none` while no constructor has written it, and `some none` when null. -/
structure SignatureHelper (Key : Type) where
  publicKey : Option (Option Key)

section
variable {Key σ : Type} (openSsl : OpenSsl Key)

def SignatureHelper.construct (publicPEMKey : CString) : SignatureHelper Key :=
  if publicPEMKey = [] then { publicKey := none }
  else { publicKey := some (openSsl.pemReadBioPubkey (cStr publicPEMKey)) }

def intToBool (value : Int) : Bool := value ≠ 0

def SignatureHelper.isValid (helper : SignatureHelper Key) (message signature : CString) :
    Exec Exception Defect σ Bool := do
  match ← initialised helper.publicKey with
  | none => return false
  | some publicKey =>
      let success := intToBool (openSsl.digestVerifyInit publicKey)
      if !success then return false
      else
        let success := intToBool (openSsl.digestVerifyUpdate publicKey message)
        if !success then return false
        else return intToBool (openSsl.digestVerifyFinal publicKey message signature)

end

/-! The header -/

def eventMagicString : CString := text "EVENTMSG"

def maxBufferSize : Int := 1024 * 1024 * 10

def headerSize : Nat := 400

structure EventMessageHeader where
  magicString : CString
  dataLength : Int64
  signature : CString

def littleEndian : List UInt8 → Nat
  | [] => 0
  | byte :: rest => byte.toNat + 256 * littleEndian rest

def EventMessageHeader.ofBytes (bytes : List UInt8) : EventMessageHeader where
  magicString := bytes.take 8
  dataLength := Int64.ofNat (littleEndian ((bytes.drop 8).take 8))
  signature := (bytes.drop 16).take 384

/-! The sockets -/

/-- One client: the bytes it sends before it closes, and which calls throw. `stopped` says that
`Stop` runs on the game thread between the header and the test of `running`, `allocationNull` that
the `malloc` which stands in for `operator new[]` on Linux and macOS returns null. -/
structure Connection where
  bytes : List UInt8
  firstWaitThrows : Bool := false
  headerReadThrows : Bool := false
  stopped : Bool := false
  secondWaitThrows : Bool := false
  allocationThrows : Bool := false
  allocationNull : Bool := false
  bodyReadThrows : Bool := false

/-- `config` is what the derived class's pointer points at, `serverConfig` the base class's
pointer, `none` while no constructor has written it. -/
structure TCPServer (Key : Type) where
  running : Bool
  config : Config
  serverConfig : Option Config
  sigHelper : SignatureHelper Key
  socketOpen : Bool
  store : EventStore

section
variable {Key σ : Type}

/-- The member initialiser writes `TCPServer::config`, and nothing writes `Server::config`. -/
def TCPServer.construct (openSsl : OpenSsl Key) (config : Config) : TCPServer Key where
  running := false
  config := config
  serverConfig := none
  sigHelper := .construct openSsl config.publicKeyPem
  socketOpen := false
  store := {}

def TCPServer.start (server : TCPServer Key) : TCPServer Key := { server with running := true }

def TCPServer.stop (server : TCPServer Key) : TCPServer Key :=
  { server with running := false, socketOpen := false }

def onStore {α : Type} (call : Exec Exception Defect EventStore α) :
    Exec Exception Defect (TCPServer Key) α := fun server =>
  match call.run server.store with
  | .ok value store => .ok value { server with store }
  | .error fault store => .error fault { server with store }

def socketWait (throws : Bool) : Exec Exception Defect σ Unit :=
  if throws then raise .systemError else return ()

/-- `boost::asio::read` of `count` bytes into a buffer of `capacity`: it writes bytes as they
come, and throws when the client closes early. -/
def socketRead (capacity count : Nat) (available : List UInt8) (throws : Bool) :
    Exec Exception Defect σ CString :=
  if throws then raise .systemError
  else if capacity < min count available.length then undefined .arrayOverrun
  else if available.length < count then raise .systemError
  else return available.take count

/-- There is no asynchronous operation for it to cancel. -/
def acceptorCancel : Exec Exception Defect σ Unit := return ()

def acceptorAccept : Exec Exception Defect (TCPServer Key) Unit := do
  if (← get).socketOpen then raise .systemError
  else modify fun server => { server with socketOpen := true }

def socketClose : Exec Exception Defect (TCPServer Key) Unit :=
  modify fun server => { server with socketOpen := false }

section
variable (platform : Platform)

def bufferCapacity (dataLength : Int64) : Nat :=
  (platform.toSizeT dataLength.toInt + 1) % 2 ^ platform.sizeBits

/-- Where `operator new[]` does not return null, `new` throws for any size beyond the largest
object. It zeroes what it gets without a test for null. -/
def allocateBuffer (connection : Connection) (capacity : Nat) : Exec Exception Defect σ Unit :=
  if connection.allocationThrows = true ∨
      connection.allocationNull = false ∧ 2 ^ (platform.sizeBits - 1) ≤ capacity then
    raise .badAlloc
  else if connection.allocationNull then undefined .nullBuffer
  else return ()

end

section
variable (platform : Platform) (openSsl : OpenSsl Key) (parse : CString → Except Exception Json)

def verifySignature (header : EventMessageHeader) (body : CString) :
    Exec Exception Defect (TCPServer Key) Bool := do
  let server ← get
  if server.config.secure then server.sigHelper.isValid openSsl body header.signature
  else return true

def readBody (connection : Connection) (header : EventMessageHeader) :
    Exec Exception Defect (TCPServer Key) Unit := do
  let body ← socketRead (bufferCapacity platform header.dataLength)
    (platform.toSizeT header.dataLength.toInt) (connection.bytes.drop headerSize)
    connection.bodyReadThrows
  if ← verifySignature openSsl header body then
    -- the buffer is zeroed and one byte longer, so the parser stops at its end at the latest
    let json ← liftThrow (parse (cStr body))
    let server ← get
    let _ ← onStore (parseMessageAndEnqueue platform server.serverConfig json)

def acceptBody (connection : Connection) (header : EventMessageHeader) :
    Exec Exception Defect (TCPServer Key) Unit := do
  if header.magicString = eventMagicString then
    if header.dataLength.toInt > maxBufferSize then
      acceptorCancel
    else
      socketWait connection.secondWaitThrows
      allocateBuffer platform connection (bufferCapacity platform header.dataLength)
      guarded Exception.isStd (readBody platform openSsl parse connection header) acceptorCancel

def readHeader (connection : Connection) :
    Exec Exception Defect (TCPServer Key) (Option EventMessageHeader) :=
  guarded Exception.isStd
    (do
      let bytes ← socketRead headerSize headerSize connection.bytes connection.headerReadThrows
      return some (EventMessageHeader.ofBytes bytes))
    (do
      acceptorCancel
      return none)

def acceptMessageHeaderAndBody (connection : Connection) :
    Exec Exception Defect (TCPServer Key) Unit := do
  socketWait connection.firstWaitThrows
  match ← readHeader connection with
  | none => return ()
  | some header =>
      modify fun server => if connection.stopped then server.stop else server
      if (← get).running then acceptBody platform openSsl parse connection header

def serverRunOnce (connection : Connection) : Exec Exception Defect (TCPServer Key) Unit :=
  guarded Exception.isStd
    (do
      acceptorAccept
      acceptMessageHeaderAndBody platform openSsl parse connection
      socketClose)
    (return ())

/-- `ServerRun` while the clients given wait in turn; after the last of them it blocks. -/
def serverRun : List Connection → Exec Exception Defect (TCPServer Key) Unit
  | [] => return ()
  | connection :: rest => do
      if (← get).running then
        serverRunOnce platform openSsl parse connection
        serverRun rest

end

end

end SocketEvents
