import SocketEvents.EventArgsCore

/-!
The natives on an `EventArgs` handle, from the object the handle stands for on. A native
returns a cell, and `GetString` also the text it hands to `StringToLocalUTF8`, which copies to
the plugin what fits its buffer.
-/

namespace SocketEvents

open Execution

abbrev Cell := Int32

def boolCell (value : Bool) : Cell := if value then 1 else 0

def sizeCell (size : Nat) : Cell := Int32.ofNat size

def spFtoc (value : Float32) : Cell := value.toBits.toInt32

def readValue (ptr : ValuePtr) : Lookup (AnyValue EventArgs) := do
  match (← get).read ptr with
  | some value => return value
  | none => undefined .danglingPointer

section
variable (platform : Platform)

def smnEventArgsGetString (key : CString) : Lookup (Cell × CString) := do
  match ← getString platform key with
  | some ptr =>
      match ← readValue ptr with
      | .string value => return (1, cStr value)
      | _ => undefined .danglingPointer
  | none => return (0, [])

def smnEventArgsGetInt (key : CString) : Lookup Cell := do
  match ← getInt platform key with
  | some ptr =>
      match ← readValue ptr with
      | .int32 value => return value
      | _ => undefined .danglingPointer
  | none => return 0

def smnEventArgsGetFloat (key : CString) : Lookup Cell := do
  match ← getFloat platform key with
  | some ptr =>
      match ← readValue ptr with
      | .float value => return spFtoc value
      | _ => undefined .danglingPointer
  | none => return 0

def smnEventArgsGetBool (key : CString) : Lookup Cell := do
  match ← getBool platform key with
  | some ptr =>
      match ← readValue ptr with
      | .bool value => return boolCell value
      | _ => undefined .danglingPointer
  | none => return 0

def smnEventArgsContainsKey (key : CString) : Lookup Cell := do
  return boolCell (← containsKey platform key)

def smnEventArgsIsArray (key : CString) : Lookup Cell := do
  match ← getArgumentWithPath platform key with
  | some arg => return boolCell (← readIsArray arg)
  | none => return 0

def smnEventArgsGetArrayLength (key : CString) : Lookup Cell := do
  match ← getArgumentWithPath platform key with
  | some arg => return sizeCell (← readArgument arg).length
  | none => return 0

end

end SocketEvents
