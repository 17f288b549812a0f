import SocketEvents.Execution
import SocketEvents.AssocMap
import SocketEvents.Json
import SocketEvents.KeyPath
import Mathlib.Algebra.Group.Int.Defs
import Mathlib.Algebra.Group.Nat.Defs

/-!
The argument tree: `Argument`, `EventArgs`, the JSON constructor, the typed setters and the
two path walkers. A C++ pointer into a tree is the location of the object it points at, and
every call runs on the whole tree, so that an insertion through `operator[]` is visible.
-/

namespace SocketEvents

open Execution

inductive Defect
  | emptyPath
  | nullEventArgs
  | nullArrayElement
  | uninitialisedRead
  | danglingPointer
  | arrayOverrun
  | doubleFree
  | escapedException
  | nullString
  | nullBuffer
  | callStackExhausted
  deriving DecidableEq, Repr

inductive EventArgumentType
  | none
  | int32
  | string
  | float
  | bool
  | args
  deriving DecidableEq, Repr

/-- The template argument `T` of the value accessors. -/
inductive ElementType
  | string
  | int32
  | float
  | bool
  | eventArgs
  deriving DecidableEq, Repr

inductive AnyValue (Args : Type)
  | empty
  | nullptr
  | string (value : CString)
  | int32 (value : Int32)
  | float (value : Float32)
  | bool (value : Bool)
  | eventArgs (value : Args)
  | stringArray (values : List CString)
  | int32Array (values : List Int32)
  | floatArray (values : List Float32)
  | boolArray (values : List Bool)
  | eventArgsArray (values : List Args)

namespace AnyValue

variable {Args : Type}

def hasValue : AnyValue Args → Bool
  | .empty => false
  | _ => true

def holds : ElementType → AnyValue Args → Bool
  | .string, .string _ => true
  | .int32, .int32 _ => true
  | .float, .float _ => true
  | .bool, .bool _ => true
  | .eventArgs, .eventArgs _ => true
  | _, _ => false

def holdsArray : ElementType → AnyValue Args → Bool
  | .string, .stringArray _ => true
  | .int32, .int32Array _ => true
  | .float, .floatArray _ => true
  | .bool, .boolArray _ => true
  | .eventArgs, .eventArgsArray _ => true
  | _, _ => false

def allocated : AnyValue Args → Nat
  | .stringArray values => values.length
  | .int32Array values => values.length
  | .floatArray values => values.length
  | .boolArray values => values.length
  | .eventArgsArray values => values.length
  | _ => 0

def element : Option Nat → AnyValue Args → Option (AnyValue Args)
  | none, value => some value
  | some index, .stringArray values => values[index]?.map .string
  | some index, .int32Array values => values[index]?.map .int32
  | some index, .floatArray values => values[index]?.map .float
  | some index, .boolArray values => values[index]?.map .bool
  | some index, .eventArgsArray values => values[index]?.map .eventArgs
  | some _, _ => none

end AnyValue

/-- `none` in `type` or `isArray` is a field no constructor has initialised. -/
structure Argument (Args : Type) where
  key : CString
  value : AnyValue Args
  type : Option EventArgumentType
  isArray : Option Bool
  length : Nat

namespace Argument

variable {Args : Type}

def unset : Argument Args :=
  { key := [], value := .empty, type := none, isArray := none, length := 0 }

def named (key : CString) : Argument Args :=
  { key, value := .nullptr, type := some .none, isArray := some false, length := 0 }

/-- Resets the value, the type and the length, but not `isArray`. -/
def clearValue (argument : Argument Args) : Argument Args :=
  { argument with value := .empty, type := some .none, length := 0 }

def setValueAsArray {T : Type} (get : Json → Except Exception T)
    (wrap : List T → AnyValue Args) (json : Json) (type : EventArgumentType)
    (argument : Argument Args) : Except Exception (Argument Args) :=
  match json with
  | .array elements => do
      let values ← elements.mapM get
      return { argument with
        type := some type, isArray := some true, value := wrap values, length := elements.length }
  | _ => .error (.argumentException (text "Json value argument is not an array"))

end Argument

inductive EventArgs
  | mk (argumentMap : List (CString × Argument EventArgs))

/-- A pointer to an `EventArgs`: the keys from the root, with the index where an array of
objects is entered. -/
abbrev ArgsPtr := List (CString × Option Nat)

structure ArgumentPtr where
  args : ArgsPtr
  key : CString
  deriving DecidableEq, Repr

structure ValuePtr where
  argument : ArgumentPtr
  element : Option Nat
  deriving DecidableEq, Repr

def ValuePtr.toArgs (ptr : ValuePtr) : ArgsPtr :=
  ptr.argument.args ++ [(ptr.argument.key, ptr.element)]

namespace EventArgs

def argumentMap : EventArgs → List (CString × Argument EventArgs)
  | .mk entries => entries

def empty : EventArgs := .mk []

def find (key : CString) (args : EventArgs) : Option (Argument EventArgs) :=
  AssocMap.find key args.argumentMap

def insert (key : CString) (argument : Argument EventArgs) (args : EventArgs) : EventArgs :=
  .mk (AssocMap.insert key argument args.argumentMap)

def child (step : CString × Option Nat) (args : EventArgs) : Option EventArgs :=
  (args.find step.1).bind fun argument =>
    match argument.value.element step.2 with
    | some (.eventArgs sub) => some sub
    | _ => none

def deref : ArgsPtr → EventArgs → Option EventArgs
  | [], args => some args
  | step :: rest, args => (args.child step).bind (deref rest)

def read (ptr : ValuePtr) (args : EventArgs) : Option (AnyValue EventArgs) :=
  (args.deref ptr.argument.args).bind fun holder =>
    (holder.find ptr.argument.key).bind fun argument => argument.value.element ptr.element

def replaceElement (element : Option Nat) (sub : EventArgs) :
    AnyValue EventArgs → AnyValue EventArgs
  | .eventArgsArray values =>
      match element with
      | some index => .eventArgsArray (values.set index sub)
      | none => .eventArgsArray values
  | .eventArgs value =>
      match element with
      | some _ => .eventArgs value
      | none => .eventArgs sub
  | other => other

def insertAt : ArgsPtr → CString → Argument EventArgs → EventArgs → EventArgs
  | [], key, argument, args => args.insert key argument
  | step :: rest, key, argument, args =>
      match args.find step.1, args.child step with
      | some holder, some sub =>
          args.insert step.1 { holder with
            value := replaceElement step.2 (insertAt rest key argument sub) holder.value }
      | _, _ => args

end EventArgs

abbrev Lookup (α : Type) := Exec Exception Defect EventArgs α

def readArgs (ptr : ArgsPtr) : Lookup EventArgs := do
  match (← get).deref ptr with
  | some args => return args
  | none => undefined .danglingPointer

def readArgument (ptr : ArgumentPtr) : Lookup (Argument EventArgs) := do
  match (← readArgs ptr.args).find ptr.key with
  | some argument => return argument
  | none => undefined .danglingPointer

/-- Reads a field that may never have been written. -/
def initialised {α σ : Type} : Option α → Exec Exception Defect σ α
  | some value => return value
  | none => undefined .uninitialisedRead

def readType (ptr : ArgumentPtr) : Lookup EventArgumentType := do
  initialised (← readArgument ptr).type

def readIsArray (ptr : ArgumentPtr) : Lookup Bool := do
  initialised (← readArgument ptr).isArray

def writeArgument (ptr : ArgumentPtr) (argument : Argument EventArgs) : Lookup Unit :=
  modify (EventArgs.insertAt ptr.args ptr.key argument)

/-- `&argumentMap[key]`, which default-constructs an absent entry. -/
def argumentMapAt (args : ArgsPtr) (key : CString) : Lookup ArgumentPtr := do
  match (← readArgs args).find key with
  | some _ => return ⟨args, key⟩
  | none =>
      writeArgument ⟨args, key⟩ .unset
      return ⟨args, key⟩

def getValue (element : ElementType) (ptr : ArgumentPtr) : Lookup (Option ValuePtr) := do
  let argument ← readArgument ptr
  if argument.value.hasValue then
    if ← initialised argument.isArray then
      return none
    else
      return if argument.value.holds element then some ⟨ptr, none⟩ else none
  else
    return none

def getValueAsArray (element : ElementType) (ptr : ArgumentPtr) : Lookup Bool := do
  let argument ← readArgument ptr
  if argument.value.hasValue then
    if ← initialised argument.isArray then
      if argument.value.holdsArray element then return true else raise .badAnyCast
    else
      return false
  else
    return false

def getArrayValueElement (element : ElementType) (ptr : ArgumentPtr) (index : Nat) :
    Lookup (Option ValuePtr) := do
  let argument ← readArgument ptr
  if index ≥ argument.length ∧ argument.value.hasValue then
    return none
  else if ← getValueAsArray element ptr then
    if index < argument.value.allocated then
      return some ⟨ptr, some index⟩
    else
      undefined .arrayOverrun
  else
    undefined .nullArrayElement

/-! `GetValueIfSameType` and `GetArgumentWithPath` call each other. The first is written over
the `ContainsKey` it uses, the second ties the knot with a bound on the call depth. -/

inductive Platform
  | x86
  | x64
  deriving DecidableEq, Repr

def Platform.sizeBits : Platform → Nat
  | .x86 => 32
  | .x64 => 64

def Platform.toSizeT (platform : Platform) (value : Int) : Nat :=
  (value % 2 ^ platform.sizeBits).toNat

inductive WalkStep
  | finish (result : Option ValuePtr)
  | next (lastEventArgs : Option ArgsPtr) (lastArg : Option ArgumentPtr)

section
variable (platform : Platform) (containsKey : ArgsPtr → CString → Lookup Bool)

def getArgumentWith (args : ArgsPtr) (key : CString) : Lookup (Option ArgumentPtr) := do
  if ← containsKey args key then
    return some (← argumentMapAt args key)
  else
    return none

def arrayStep (element : ElementType) (type : EventArgumentType) (key : CString)
    (lastArg : ArgumentPtr) : Lookup WalkStep := do
  let index ← liftThrow (stoi key)
  let argType ← readType lastArg
  if argType = .args then
    let sub ← getArrayValueElement .eventArgs lastArg (platform.toSizeT index)
    return .next (sub.map ValuePtr.toArgs) none
  else if argType = type then
    return .finish (← getArrayValueElement element lastArg (platform.toSizeT index))
  else
    return .next none (some lastArg)

def walkStep (element : ElementType) (type : EventArgumentType) (key : CString) :
    Option ArgsPtr → Option ArgumentPtr → Lookup WalkStep
  | some lastEventArgs, lastArg => do
      match ← getArgumentWith containsKey lastEventArgs key with
      | some arg =>
          if (← readType arg) = .args then
            return .next ((← getValue .eventArgs arg).map ValuePtr.toArgs) (some arg)
          else
            return .next none (some arg)
      | none => return .next (some lastEventArgs) lastArg
  | none, some lastArg => do
      if ← readIsArray lastArg then
        guarded Exception.isStd (arrayStep platform element type key lastArg)
          (return .finish none)
      else
        return .finish none
  | none, none => return .finish none

def getValueIfSameTypeFrom (element : ElementType) (type : EventArgumentType)
    (isArray : Bool) :
    List CString → Option ArgsPtr → Option ArgumentPtr → Lookup (Option ValuePtr)
  | [], _, some lastArg => do
      if (← readType lastArg) = type then
        if (← readIsArray lastArg) = isArray then getValue element lastArg else return none
      else
        return none
  | [], _, none => return none
  | key :: rest, lastEventArgs, lastArg => do
      match ← walkStep platform containsKey element type key lastEventArgs lastArg with
      | .finish result => return result
      | .next lastEventArgs lastArg =>
          getValueIfSameTypeFrom element type isArray rest lastEventArgs lastArg

def getEventArgsWith (args : ArgsPtr) (key : CString) : Lookup (Option ValuePtr) :=
  getValueIfSameTypeFrom platform containsKey .eventArgs .args false
    (getKeyAsPath key) (some args) none

end

def getArgumentWithPathFrom (getEventArgs : ArgsPtr → CString → Lookup (Option ValuePtr)) :
    List CString → Option ArgsPtr → Lookup (Option ArgumentPtr)
  -- `keyPath.size() - 1` wraps around, and the loop reads `keyPath[0]`
  | [], _ => undefined .emptyPath
  | _ :: _, none => undefined .nullEventArgs
  | [key], some args => do
      match (← readArgs args).find key with
      | some _ => return some ⟨args, key⟩
      | none => return none
  | key :: next :: rest, some args => do
      match ← getEventArgs args key with
      | some _ => return none
      -- `args` is now the null pointer just returned
      | none => getArgumentWithPathFrom getEventArgs (next :: rest) none

section
variable (platform : Platform)

def containsKeyWithin : Nat → ArgsPtr → CString → Lookup Bool
  | 0, _, _ => undefined .callStackExhausted
  | depth + 1, args, key => do
      let found ← getArgumentWithPathFrom
        (getEventArgsWith platform (containsKeyWithin depth)) (getKeyAsPath key) (some args)
      return found.isSome

/-- The calls of `ContainsKey` that are ever open at once, by `containsKeyAt_eq`. -/
def callDepth : Nat := 2

def containsKeyAt (args : ArgsPtr) (key : CString) : Lookup Bool :=
  containsKeyWithin platform callDepth args key

def getEventArgsAt (args : ArgsPtr) (key : CString) : Lookup (Option ValuePtr) :=
  getEventArgsWith platform (containsKeyAt platform) args key

def getArgumentWithPathAt (args : ArgsPtr) (keyPath : List CString) :
    Lookup (Option ArgumentPtr) :=
  getArgumentWithPathFrom (getEventArgsAt platform) keyPath (some args)

def containsKey (key : CString) : Lookup Bool := containsKeyAt platform [] key

def getArgument (key : CString) : Lookup (Option ArgumentPtr) :=
  getArgumentWith (containsKeyAt platform) [] key

def getArgumentWithPath (key : CString) : Lookup (Option ArgumentPtr) :=
  getArgumentWithPathAt platform [] (getKeyAsPath key)

def getValueIfSameType (element : ElementType) (type : EventArgumentType) (isArray : Bool)
    (keyPath : List CString) : Lookup (Option ValuePtr) :=
  getValueIfSameTypeFrom platform (containsKeyAt platform) element type isArray keyPath
    (some []) none

def getString (key : CString) : Lookup (Option ValuePtr) :=
  getValueIfSameType platform .string .string false (getKeyAsPath key)

def getInt (key : CString) : Lookup (Option ValuePtr) :=
  getValueIfSameType platform .int32 .int32 false (getKeyAsPath key)

def getFloat (key : CString) : Lookup (Option ValuePtr) :=
  getValueIfSameType platform .float .float false (getKeyAsPath key)

def getBool (key : CString) : Lookup (Option ValuePtr) :=
  getValueIfSameType platform .bool .bool false (getKeyAsPath key)

def getEventArgs (key : CString) : Lookup (Option ValuePtr) :=
  getValueIfSameType platform .eventArgs .args false (getKeyAsPath key)

def getArrayValueIfSameType (element : ElementType) (type : EventArgumentType)
    (keyPath : List CString) : Lookup (Option ArgumentPtr) := do
  match ← getArgumentWithPathAt platform [] keyPath with
  | some arg =>
      if ← readIsArray arg then
        if (← readType arg) = type then
          if ← getValueAsArray element arg then return some arg else return none
        else
          return none
      else
        return none
  | none => return none

def getStringArray (key : CString) : Lookup (Option ArgumentPtr) :=
  getArrayValueIfSameType platform .string .string (getKeyAsPath key)

def getIntArray (key : CString) : Lookup (Option ArgumentPtr) :=
  getArrayValueIfSameType platform .int32 .int32 (getKeyAsPath key)

def getFloatArray (key : CString) : Lookup (Option ArgumentPtr) :=
  getArrayValueIfSameType platform .float .float (getKeyAsPath key)

def getValueRaw (key : CString) : Lookup (Option ArgumentPtr) :=
  getArgumentWithPath platform key

def getArrayLength (key : CString) : Lookup Nat := do
  match ← getArgumentWithPath platform key with
  | some arg => return (← readArgument arg).length
  | none => return 0

def getOrAddArgument (key : CString) : Lookup ArgumentPtr := do
  if ← containsKey platform key then
    argumentMapAt [] key
  else
    writeArgument ⟨[], key⟩ (.named key)
    argumentMapAt [] key

def setArgument (type : EventArgumentType) (value : AnyValue EventArgs) (key : CString) :
    Lookup Unit := do
  let arg ← getOrAddArgument platform key
  writeArgument arg { (← readArgument arg).clearValue with type := some type, value := value }

def setString (key : CString) (value : CString) : Lookup Unit :=
  setArgument platform .string (.string value) key

def setInt (key : CString) (value : Int32) : Lookup Unit :=
  setArgument platform .int32 (.int32 value) key

def setFloat (key : CString) (value : Float32) : Lookup Unit :=
  setArgument platform .float (.float value) key

def setBool (key : CString) (value : Bool) : Lookup Unit :=
  setArgument platform .bool (.bool value) key

/-- The copy takes over an `isArray` that was never written without reading it as a `bool`. -/
def setEventArgs (key : CString) (object : EventArgs) : Lookup Unit :=
  setArgument platform .args (.eventArgs object) key

/-! The JSON constructor -/

abbrev Built := Except (Fault Exception Defect) EventArgs

structure Item where
  key : CString
  value : Json
  decoded : Built

def jsonTypeToArgumentType : Json → EventArgumentType
  | .string _ => .string
  | .numberUnsigned _ => .int32
  | .numberInteger _ => .int32
  | .numberFloat _ => .float
  | .boolean _ => .bool
  | .object _ => .args
  | .null => .none
  | .array _ => .none

/-- The elements `EventArgs(json[i])` for `i < json.size()`, where `json` is the value the
constructor was called with. An object has no numeric `operator[]`. -/
def eventArgsArray (json : Json) (decoded : List Built) :
    Except (Fault Exception Defect) (List EventArgs) :=
  match json with
  | .array _ => decoded.mapM id
  | _ => .error (.thrown (.typeError 305))

def arrayArgument (json : Json) (decoded : List Built) (key : CString) (first value : Json) :
    Except (Fault Exception Defect) (Argument EventArgs) :=
  let arrayArg := Argument.named key
  let argType := jsonTypeToArgumentType first
  match argType with
  | .string =>
      (arrayArg.setValueAsArray Json.getString .stringArray value argType).mapError .thrown
  | .int32 => (arrayArg.setValueAsArray Json.getInt32 .int32Array value argType).mapError .thrown
  | .float => (arrayArg.setValueAsArray Json.getFloat .floatArray value argType).mapError .thrown
  | .bool => (arrayArg.setValueAsArray Json.getBool .boolArray value argType).mapError .thrown
  | .args => do
      let elements ← eventArgsArray json decoded
      return { arrayArg with
        type := some .args
        isArray := some true
        value := .eventArgsArray elements
        length := json.size }
  | .none => .ok arrayArg

def addItem (json : Json) (decoded : List Built) (item : Item) : Lookup Unit :=
  match item.value with
  | .array (first :: rest) => do
      let arrayArg ← liftFault
        (arrayArgument json decoded item.key first (.array (first :: rest)))
      writeArgument ⟨[], item.key⟩ arrayArg
  | .string value => setString platform item.key value
  | .numberUnsigned value => do
      setInt platform item.key (← liftThrow (Json.numberUnsigned value).getInt32)
  | .numberInteger value => do
      setInt platform item.key (← liftThrow (Json.numberInteger value).getInt32)
  | .numberFloat value => do
      setFloat platform item.key (← liftThrow (Json.numberFloat value).getFloat)
  | .boolean value => setBool platform item.key value
  | .object _ => do setEventArgs platform item.key (← liftFault item.decoded)
  -- null and the empty array are reported and left out
  | .array [] => return ()
  | .null => return ()

def itemsWith (json : Json) (decoded : List Built) : List Item :=
  match json with
  | .array _ => List.zipWith (fun entry built => ⟨entry.1, entry.2, built⟩) json.items decoded
  | .object _ => List.zipWith (fun entry built => ⟨entry.1, entry.2, built⟩) json.items decoded
  | primitive => primitive.items.map fun entry => ⟨entry.1, entry.2, .ok .empty⟩

def construct (json : Json) (decoded : List Built) : Built :=
  finalState (((itemsWith json decoded).forM (addItem platform json decoded)).run .empty)

mutual
def ofJson : Json → Built
  | .array elements => construct platform (.array elements) (ofElements elements)
  | .object members => construct platform (.object members) (ofMembers members)
  | primitive => construct platform primitive []

def ofElements : List Json → List Built
  | [] => []
  | element :: rest => ofJson element :: ofElements rest

def ofMembers : List (CString × Json) → List Built
  | [] => []
  | (_, value) :: rest => ofJson value :: ofMembers rest
end

end

end SocketEvents
