import SocketEvents.ExtensionCore
import SocketEvents.Transition

/-!
Loading and unloading the extension. What the file system and the server's constructor and
`Start` do is a parameter of the load.
-/

namespace SocketEvents

open Execution

structure LoadEnvironment where
  configExists : Except Exception Bool
  configParsed : Except Exception Config
  publicKey : Option CString
  constructServer : Except Exception Unit
  startServer : Except Exception Unit

structure HostServer where
  started : Bool := false
  stopped : Bool := false

structure Host where
  extension : Extension
  server : Option HostServer := none
  hooked : Bool := false
  released : List ForwardRef := []

inductive HostDefect
  | nullServer
  | game (defect : Defect)
  deriving DecidableEq

def Config.loadPEMPublicKey (publicKey : Option CString) (config : Config) : Bool × Config :=
  match publicKey with
  | some key => (true, { config with publicKeyPem := key })
  | none => (false, { config with secure := false })

def configName : CString := text "socketevents.json"

namespace Host

abbrev Call (α : Type) := Exec Exception HostDefect Host α

def setConfig (config : Config) (host : Host) : Host :=
  { host with extension := { host.extension with config } }

def print (toPrint : CString) : Call Unit :=
  modify fun host =>
    { host with extension := { host.extension with
        printed := host.extension.printed ++ [printed toPrint] } }

def announce (config : Config) : Call Unit := do
  print (text "Started event server on port: " ++ text (toString config.port.toInt))
  if !config.websockets then
    let isSecure := config.secure && !config.publicKeyPem.isEmpty
    print (if isSecure then text "Message signature verification is enabled."
      else text "Message signature verification is disabled (Enable in config).")

section
variable (environment : LoadEnvironment)

def parseConfig : Call Unit :=
  -- the handler also prints the text of the exception
  guarded Exception.isStd
    (do
      let config ← liftThrow environment.configParsed
      modify (setConfig config))
    (print (text "Failed to parse config, defaults will be used."))

def loadKey : Call Unit := do
  let config := (← get).extension.config
  if config.secure && !config.websockets then
    let (keyLoaded, config) := config.loadPEMPublicKey environment.publicKey
    modify (setConfig config)
    if !keyLoaded then
      print (text "Failed to load public key file '" ++ config.publicKeyFile ++
        text "'. A public key in PEM format is required for secure mode in tcp mode!")

def loadConfig : Call Unit := do
  if ← liftThrow environment.configExists then
    parseConfig environment
    loadKey environment
  else
    print (text "Config '" ++ configName ++ text "' not present, defaults will be used.")

def startServer : Call Unit := do
  let config := (← get).extension.config
  print (if config.websockets then text "Will use web socket server"
    else text "Will use TCP server")
  liftThrow environment.constructServer
  modify fun host => { host with server := some {} }
  liftThrow environment.startServer
  modify fun host => { host with server := some { started := true } }
  announce config

def tryLoadConfig : Call Bool :=
  guarded Exception.isStd
    (do
      loadConfig environment
      return true)
    (return false)

/-- The hook is installed before the server is made. -/
def sdkOnLoad : Call Bool := do
  if ← tryLoadConfig environment then
    modify fun host => { host with hooked := true }
    startServer environment
    return true
  else
    return false

end

def stopServer : Call Unit := do
  match (← get).server with
  | some server =>
      modify fun host => { host with server := some { server with stopped := true } }
  | none => undefined .nullServer

def sdkOnUnload : Call Unit := do
  modify fun host =>
    { host with released := host.released ++ host.extension.eventForwards.map Prod.snd }
  modify fun host => { host with extension := { host.extension with eventForwards := [] } }
  modify fun host => { host with hooked := false }
  if (← get).server.isNone then
    stopServer

/-- `OnGameFrame` uses the queue of the server as soon as its loop is entered. -/
def gameFrame (platform : Platform) (sourceMod : SourceMod) : Call Unit := fun host =>
  if host.server.isNone ∧ host.extension.config.frameLimit platform ≠ 0 then
    .error (.undefined .nullServer) host
  else
    match (onGameFrame platform sourceMod).run host.extension with
    | .ok _ extension => .ok () { host with extension }
    | .error (.thrown _) extension => .ok () { host with extension }
    | .error (.undefined defect) extension =>
        .error (.undefined (.game defect)) { host with extension }

end Host

inductive LoadPhase
  | initial
  | loaded
  | unloaded
  deriving DecidableEq

structure ExtensionLife where
  host : Host
  phase : LoadPhase := .initial
  crashed : Option HostDefect := none

namespace ExtensionLife

def created : ExtensionLife where
  host := { extension := { config := {} } }

def after {α : Type} (phase : LoadPhase) (call : Host.Call α) (life : ExtensionLife) :
    ExtensionLife where
  host := resultState (call.run life.host)
  phase := phase
  crashed :=
    match call.run life.host with
    | .error (.undefined defect) _ => some defect
    | _ => none

inductive Action
  | load (environment : LoadEnvironment)
  | gameFrame
  | native (plugin : Plugin) (native : ListenerNative)
  | unload

inductive Step (platform : Platform) (sourceMod : SourceMod) (life : ExtensionLife) :
    Action → ExtensionLife → Prop
  | load (environment : LoadEnvironment) : life.phase = .initial → life.crashed = none →
      Step platform sourceMod life (.load environment)
        (life.after .loaded (Host.sdkOnLoad environment))
  | gameFrame : life.phase = .loaded → life.crashed = none → life.host.hooked = true →
      Step platform sourceMod life .gameFrame
        (life.after .loaded (Host.gameFrame platform sourceMod))
  | native (plugin : Plugin) (native : ListenerNative) : life.phase = .loaded →
      life.crashed = none →
      Step platform sourceMod life (.native plugin native)
        { life with host := { life.host with
            extension := native.run plugin life.host.extension } }
  | unload : life.phase = .loaded → life.crashed = none →
      Step platform sourceMod life .unload (life.after .unloaded Host.sdkOnUnload)

end ExtensionLife

end SocketEvents
