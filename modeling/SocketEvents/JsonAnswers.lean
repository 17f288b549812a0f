import SocketEvents.PathLookup
import SocketEvents.WebsocketHost

/-!
What the natives tell a plugin, as a function of the message alone.
-/

namespace SocketEvents

open Execution Transition Json

def AnyValue.cell : AnyValue EventArgs → Cell
  | .int32 value => value
  | .float value => spFtoc value
  | .bool value => boolCell value
  | _ => 0

namespace Json

/-- The value a path leads a getter of this type to. A name that is not there is passed over. -/
def selected (platform : Platform) (type : EventArgumentType) : List CString → Json → Option Json
  | [], json => if jsonTypeToArgumentType json = type then some json else none
  | name :: rest, .object members =>
      match AssocMap.find name members with
      | some value =>
          if value.isKept then selected platform type rest value
          else selected platform type rest (.object members)
      | none => selected platform type rest (.object members)
  | key :: _, .array (first :: rest) =>
      if jsonTypeToArgumentType first = type then
        match stoi key with
        | .ok index => (first :: rest)[platform.toSizeT index]?
        | .error _ => none
      else none
  | _ :: _, _ => none

def answerOf (platform : Platform) (kind : ElementType) (key : CString) (json : Json) :
    Option (AnyValue EventArgs) :=
  (selected platform kind.tag (getKeyAsPath key) json).bind fun value =>
    (value.convertTo kind).toOption

/-- The member that `GetArgumentWithPath` finds: none by a path of several names. -/
def rootMember (key : CString) : Json → Option Json
  | .object members =>
      match getKeyAsPath key with
      | [name] => (AssocMap.find name members).filter isKept
      | _ => none
  | _ => none

def keptLength : Json → Nat
  | .array (first :: rest) =>
      if jsonTypeToArgumentType first = .none then 0 else rest.length + 1
  | _ => 0

def told (platform : Platform) (key : CString) (json : Json) : EventArgsNative → Cell × CString
  | .getString _ =>
      match json.answerOf platform .string key with
      | some (.string value) => (1, cStr value)
      | _ => (0, [])
  | .getInt => ((json.answerOf platform .int32 key).elim 0 AnyValue.cell, [])
  | .getFloat => ((json.answerOf platform .float key).elim 0 AnyValue.cell, [])
  | .getBool => ((json.answerOf platform .bool key).elim 0 AnyValue.cell, [])
  | .containsKey => (boolCell (json.rootMember key).isSome, [])
  | .isArray => (boolCell ((json.rootMember key).any (·.keptLength ≠ 0)), [])
  | .getArrayLength => (sizeCell ((json.rootMember key).elim 0 keptLength), [])

end Json

theorem Json.StoredAs.convertTo {platform : Platform} {value : Json} {any : AnyValue EventArgs}
    {kind : ElementType} (storedAs : StoredAs platform value any) (scalar : kind ≠ .eventArgs)
    (typed : jsonTypeToArgumentType value = kind.tag) : value.convertTo kind = .ok any := by
  cases storedAs <;> cases kind <;>
    simp_all [jsonTypeToArgumentType, ElementType.tag, Json.convertTo, Json.getString,
      Json.getInt32, Json.getFloat, Json.getBool, Except.map]

section
variable {platform : Platform} {tree holder : EventArgs} {ptr : ArgumentPtr} {kind : ElementType}
  {container : List (CString × Json)} {first value : Json} {rest : List Json}

theorem MemberOf.kept (memberOf : MemberOf platform tree ptr value container holder)
    (kept : value.isKept = true) :
    ∃ argument, tree.argumentAt ptr = some argument ∧ argument.length = value.keptLength ∧
      argument.isArray = some (decide (value.keptLength ≠ 0)) := by
  cases value with
  | null => simp [isKept] at kept
  | array elements =>
      cases elements with
      | nil => simp [isKept] at kept
      | cons first rest =>
          obtain ⟨argument, stored, _⟩ := memberOf.array
          refine ⟨argument, stored, ?_⟩
          rcases arrayArgument_built (arrayArgument_of_member (memberOf.stored.symm.trans stored))
            with ⟨unreal, rfl⟩ | ⟨kind, _, same, built⟩
          · simp [keptLength, unreal, Argument.named]
          · simp [keptLength, same, kind.tag_ne_none, built.length, built.isArray]
  | _ =>
      obtain ⟨any, _, _, stored⟩ := memberOf.scalar (by simp [jsonTypeToArgumentType])
      exact ⟨_, stored, rfl, rfl⟩

end

section
variable {platform : Platform} {tree : EventArgs} {members : List (CString × Json)}
  (wellFormed : (Json.object members).WellFormed) (plain : (Json.object members).PlainNames)
  (decoded : ofJson platform (.object members) = .ok tree)
include wellFormed plain decoded

end

/-! Through the server, the queue and the handle -/

end SocketEvents
