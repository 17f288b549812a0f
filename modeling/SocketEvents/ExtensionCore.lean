import SocketEvents.EventArgsHandle
import SocketEvents.ServerCore

/-!
The game thread: the listener natives, `OnGameFrame`, and what it needs of SourceMod. A plugin
function is the list of natives it calls with its handle, up to the first that fails.
-/

namespace SocketEvents

open Execution

/-! SourceMod -/

abbrev Plugin := Nat

abbrev FunctionId := Nat

structure Listener where
  plugin : Plugin
  function : FunctionId
  deriving DecidableEq, Repr

/-- `IChangeableForward`: a set of functions. -/
structure Forward where
  functions : List Listener
  distinct : functions.Nodup

namespace Forward

def created : Forward := { functions := [], distinct := List.nodup_nil }

def addFunction (listener : Listener) (forward : Forward) : Forward where
  functions := if listener ∈ forward.functions then forward.functions
    else forward.functions ++ [listener]
  distinct := by
    split
    · exact forward.distinct
    · rename_i absent
      refine List.nodup_append.mpr ⟨forward.distinct, by simp, ?_⟩
      intro other member new last same
      exact absent (List.mem_singleton.mp last ▸ same ▸ member)

def removeFunction (listener : Listener) (forward : Forward) : Forward where
  functions := forward.functions.filter (· ≠ listener)
  distinct := forward.distinct.filter _

end Forward

abbrev ForwardRef := Nat

abbrev Handle := Nat

inductive EventArgsNative
  | getString (maxlength : Cell)
  | getInt
  | getFloat
  | getBool
  | containsKey
  | isArray
  | getArrayLength
  deriving DecidableEq, Repr

inductive ListenerNative
  | addEventListener (name : CString) (function : FunctionId)
  | removeEventListener (name : CString) (function : FunctionId)
  | removeAllEventListeners (name : CString)
  deriving DecidableEq, Repr

/-- A call of a native from a plugin, whose key may be `NULL_STRING`. -/
inductive PluginCall
  | read (native : EventArgsNative) (key : Option CString)
  | deleteHandle
  | listeners (native : ListenerNative)
  deriving DecidableEq, Repr

/-- The plugins, and the parts of SourceMod that the extension calls. The `n`th `CreateHandle`
reports an error, 0 being `HandleError_None`, or returns a handle that is not in use. `Execute`
calls each function once, and its result goes by the handles requested so far. -/
structure SourceMod where
  callback : Listener → List PluginCall
  createHandleError : Nat → Nat
  newHandle : Nat → List Handle → Handle
  callOrder : List Listener → List Listener
  executeResult : Nat → Cell
  fresh : ∀ request inUse, newHandle request inUse ∉ inUse
  callsEach : ∀ functions, (callOrder functions).Perm functions

def badHandle : Handle := 0

def SourceMod.simple (callback : Listener → List PluginCall) : SourceMod where
  callback
  createHandleError _ := 0
  newHandle _ inUse := inUse.max?.getD 0 + 1
  callOrder functions := functions
  executeResult _ := 0
  fresh _ _ member := Nat.not_succ_le_self _ (List.le_max?_getD_of_mem member)
  callsEach _ := List.Perm.refl _

def plHandled : Cell := 3

/-- `ThrowNativeError`, which ends the plugin function. -/
inductive NativeError
  | invalidHandle
  deriving DecidableEq, Repr

inductive Outcome
  | executed (forward : ForwardRef)
  | handleError (error : Nat)
  | discarded
  | missingArguments
  deriving DecidableEq, Repr

structure ReadRecord where
  listener : Listener
  handle : Handle
  native : EventArgsNative
  key : Option CString
  result : Option (Cell × CString)
  deriving DecidableEq, Repr

/-- The globals of the extension, SourceMod's handles and forwards, and the history. -/
structure Extension where
  config : Config
  store : EventStore := {}
  eventForwards : List (CString × ForwardRef) := []
  forwards : List Forward := []
  handles : List (Handle × ArgsRef) := []
  handlesRequested : Nat := 0
  printed : List CString := []
  outcomes : List (EventMessage × Outcome) := []
  calls : List (Handle × Listener) := []
  reads : List ReadRecord := []

namespace Extension

def getOrAddForward (name : CString) (extension : Extension) : ForwardRef × Extension :=
  match AssocMap.find name extension.eventForwards with
  | some forward => (forward, extension)
  | none =>
      let newForward := extension.forwards.length
      (newForward,
        { extension with
          forwards := extension.forwards ++ [.created]
          eventForwards := AssocMap.insert name newForward extension.eventForwards })

def modifyForward (forward : ForwardRef) (change : Forward → Forward) (extension : Extension) :
    Extension :=
  { extension with forwards := extension.forwards.modify forward change }

def addEventListener (plugin : Plugin) (name : CString) (function : FunctionId)
    (extension : Extension) : Extension :=
  let (forward, extension) := extension.getOrAddForward name
  extension.modifyForward forward (Forward.addFunction { plugin, function })

def removeEventListener (plugin : Plugin) (name : CString) (function : FunctionId)
    (extension : Extension) : Extension :=
  let (forward, extension) := extension.getOrAddForward name
  extension.modifyForward forward (Forward.removeFunction { plugin, function })

/-- The call that would remove the plugin's functions is commented out. -/
def removeAllEventListeners (_plugin : Plugin) (name : CString) (extension : Extension) :
    Extension :=
  (extension.getOrAddForward name).2

end Extension

def ListenerNative.run (plugin : Plugin) : ListenerNative → Extension → Extension
  | .addEventListener name function => Extension.addEventListener plugin name function
  | .removeEventListener name function => Extension.removeEventListener plugin name function
  | .removeAllEventListeners name => Extension.removeAllEventListeners plugin name

abbrev GameThread (α : Type) := Exec NativeError Defect Extension α

def SourceMod.nextError (sourceMod : SourceMod) (extension : Extension) : Nat :=
  sourceMod.createHandleError extension.handlesRequested

def SourceMod.nextHandle (sourceMod : SourceMod) (extension : Extension) : Handle :=
  sourceMod.newHandle extension.handlesRequested (extension.handles.map Prod.fst)

def createHandle (sourceMod : SourceMod) (args : ArgsRef) : GameThread (Handle × Nat) := do
  let extension ← get
  let error := sourceMod.nextError extension
  let handlesRequested := extension.handlesRequested + 1
  if error = 0 then
    let handle := sourceMod.nextHandle extension
    set { extension with handlesRequested, handles := extension.handles ++ [(handle, args)] }
    return (handle, error)
  else
    set { extension with handlesRequested }
    return (badHandle, error)

def deleteArgs (args : ArgsRef) : GameThread Unit := do
  let extension ← get
  match extension.store.objects.free args with
  | some objects => set { extension with store := { extension.store with objects } }
  | none => undefined .doubleFree

def getEventArgsFromHandle (handle : Handle) : GameThread ArgsRef := do
  match AssocMap.find handle (← get).handles with
  | some args => return args
  | none => raise .invalidHandle

/-- Deleting a handle destroys its object through `OnHandleDestroy`. -/
def deleteHandle (handle : Handle) : GameThread Unit := do
  let args ← getEventArgsFromHandle handle
  modify fun extension => { extension with handles := AssocMap.erase handle extension.handles }
  deleteArgs args

/-- `LocalToStringNULL`, and the `std::string` made of what it returns. -/
def keyString : Option CString → GameThread CString
  | some key => return key
  | none => undefined .nullString

/-- Runs a member function on an object. No exception may leave a native. -/
def onEventArgs {α : Type} (args : ArgsRef) (call : Lookup α) : GameThread α := do
  let extension ← get
  match extension.store.objects.load args with
  | none => undefined .danglingPointer
  | some tree =>
      match call.run tree with
      | .ok value tree =>
          set { extension with
            store := { extension.store with objects := extension.store.objects.store args tree } }
          return value
      | .error (.thrown _) _ => undefined .escapedException
      | .error (.undefined defect) _ => undefined defect

def EventArgsNative.run (platform : Platform) (key : CString) :
    EventArgsNative → Lookup (Cell × CString)
  | .getString _ => smnEventArgsGetString platform key
  | .getInt => do return (← smnEventArgsGetInt platform key, [])
  | .getFloat => do return (← smnEventArgsGetFloat platform key, [])
  | .getBool => do return (← smnEventArgsGetBool platform key, [])
  | .containsKey => do return (← smnEventArgsContainsKey platform key, [])
  | .isArray => do return (← smnEventArgsIsArray platform key, [])
  | .getArrayLength => do return (← smnEventArgsGetArrayLength platform key, [])

section
variable (platform : Platform) (sourceMod : SourceMod)

def recordRead (listener : Listener) (handle : Handle) (native : EventArgsNative)
    (key : Option CString) (result : Option (Cell × CString)) : GameThread Unit :=
  modify fun extension =>
    { extension with reads := extension.reads ++ [{ listener, handle, native, key, result }] }

def readNative (listener : Listener) (handle : Handle) (native : EventArgsNative)
    (key : Option CString) : GameThread Unit := do
  let args ← guarded (fun _ => true) (getEventArgsFromHandle handle) (do
    recordRead listener handle native key none
    raise .invalidHandle)
  let path ← keyString key
  let result ← onEventArgs args (native.run platform path)
  recordRead listener handle native key (some result)

def runCall (listener : Listener) (handle : Handle) : PluginCall → GameThread Unit
  | .read native key => readNative platform listener handle native key
  | .deleteHandle => deleteHandle handle
  | .listeners native => modify (native.run listener.plugin)

def runCallback (handle : Handle) (listener : Listener) : GameThread Unit := do
  modify fun extension => { extension with calls := extension.calls ++ [(handle, listener)] }
  guarded (fun _ => true)
    ((sourceMod.callback listener).forM (runCall platform listener handle)) (return ())

/-! The frame -/

def smextConfName : CString := text "SocketEvents"

def printed (toPrint : CString) : CString :=
  text "[" ++ smextConfName ++ text "] " ++ toPrint

def print (toPrint : CString) : GameThread Unit :=
  modify fun extension => { extension with printed := extension.printed ++ [printed toPrint] }

def printError (toPrint : CString) : GameThread Unit :=
  print (text "ERROR: " ++ toPrint)

def missingArgumentsText (name : CString) : CString :=
  text "Event '" ++ name ++ text "' was missing valid arguments."

def sentText (name : CString) : CString := text "Event '" ++ name ++ text "' sent"

def handleErrorText (error : Nat) : CString :=
  text "EventArgs Handle creation error: " ++ text (toString error)

def noSubscribersText (name : CString) : CString :=
  text "Received Event '" ++ name ++ text "' but there are 0 subscribers"

def recordOutcome (message : EventMessage) (outcome : Outcome) : GameThread Unit :=
  modify fun extension => { extension with outcomes := extension.outcomes ++ [(message, outcome)] }

def execute (message : EventMessage) (forward : ForwardRef) (handle : Handle) :
    GameThread Cell := do
  recordOutcome message (.executed forward)
  let extension ← get
  match extension.forwards[forward]? with
  | some target =>
      (sourceMod.callOrder target.functions).forM (runCallback platform sourceMod handle)
      return sourceMod.executeResult extension.handlesRequested
  | none => undefined .danglingPointer

def reportMissing (message : EventMessage) : GameThread Unit := do
  recordOutcome message .missingArguments
  printError (missingArgumentsText message.name)

def dispatchMessage (message : EventMessage) (args : ArgsRef) : GameThread Unit := do
  match AssocMap.find message.name (← get).eventForwards with
  | some forward =>
      let (handle, error) ← createHandle sourceMod args
      if error = 0 then
        let result ← execute platform sourceMod message forward handle
        if result = plHandled then
          print (sentText message.name)
      else
        recordOutcome message (.handleError error)
        printError (handleErrorText error)
        deleteArgs args
  | none =>
      recordOutcome message .discarded
      printError (noSubscribersText message.name)
      deleteArgs args

def tryDequeue : GameThread (Option EventMessage) := do
  let extension ← get
  let (message, eventQueue) := extension.store.eventQueue.tryDequeue
  set { extension with store := { extension.store with eventQueue } }
  return message

def onGameFrameFrom : Nat → GameThread Unit
  | 0 => return ()
  | remaining + 1 => do
      match ← tryDequeue with
      | some message =>
          match message.args with
          | some args =>
              dispatchMessage platform sourceMod message args
              onGameFrameFrom remaining
          | none => reportMissing message
      | none => return ()

/-- The iterations the loop may make: `eventsPerFrame` is converted to `size_t`. -/
def Config.frameLimit (config : Config) : Nat := platform.toSizeT config.eventsPerFrame.toInt

def onGameFrame : GameThread Unit := do
  onGameFrameFrom platform sourceMod ((← get).config.frameLimit platform)

end

end SocketEvents
