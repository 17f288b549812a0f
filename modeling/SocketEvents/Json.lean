import SocketEvents.AssocMap
import SocketEvents.CString
import Mathlib.Data.List.Nodup

/-! The JSON values of the message parser, and the conversions the program calls on them. -/

namespace SocketEvents

/-- `nlohmann::json`. The members of an object are listed in the order of its map. -/
inductive Json
  | null
  | boolean (value : Bool)
  | numberInteger (value : Int64)
  | numberUnsigned (value : UInt64)
  | numberFloat (value : Float)
  | string (value : CString)
  | array (elements : List Json)
  | object (members : List (CString × Json))

namespace Json

def size : Json → Nat
  | .null => 0
  | .array elements => elements.length
  | .object members => members.length
  | _ => 1

def numberedFrom (first : Nat) : List Json → List (CString × Json)
  | [] => []
  | element :: rest => (numeral first, element) :: numberedFrom (first + 1) rest

/-- `items()`: an array yields its indices as keys, a primitive value itself once under the
empty key, and null nothing. -/
def items : Json → List (CString × Json)
  | .null => []
  | .array elements => numberedFrom 0 elements
  | .object members => members
  | primitive => [([], primitive)]

def contains (key : CString) : Json → Bool
  | .object members => (members.map Prod.fst).contains key
  | _ => false

/-- `operator[]` on a key that is present; null stands for the member it would insert. -/
def member (key : CString) : Json → Json
  | .object members => (AssocMap.find key members).getD .null
  | _ => .null

def getString : Json → Except Exception CString
  | .string value => .ok value
  | _ => .error (.typeError 302)

/-- A cast beyond the range of `int` is undefined, and an x86 processor answers with the least. -/
def floatToInt (value : Float) : Int32 :=
  if -2147483649 < value ∧ value < 2147483648 then value.toInt32 else -2147483648

def getInt32 : Json → Except Exception Int32
  | .numberUnsigned value => .ok value.toUInt32.toInt32
  | .numberInteger value => .ok value.toInt32
  | .numberFloat value => .ok (floatToInt value)
  | .boolean value => .ok (if value then 1 else 0)
  | _ => .error (.typeError 302)

def getFloat : Json → Except Exception Float32
  | .numberUnsigned value => .ok value.toFloat32
  | .numberInteger value => .ok value.toFloat32
  | .numberFloat value => .ok value.toFloat32
  | .boolean value => .ok (if value then 1 else 0)
  | _ => .error (.typeError 302)

def getBool : Json → Except Exception Bool
  | .boolean value => .ok value
  | _ => .error (.typeError 302)

def children : Json → List Json
  | .array elements => elements
  | .object members => members.map Prod.snd
  | _ => []

theorem sizeOf_child {json child : Json} (member : child ∈ json.children) :
    sizeOf child < sizeOf json := by
  cases json with
  | array elements =>
      have present : child ∈ elements := member
      have smaller := List.sizeOf_lt_of_mem present
      simp only [Json.array.sizeOf_spec]
      omega
  | object members =>
      obtain ⟨entry, present, rfl⟩ := List.mem_map.mp member
      have smaller := List.sizeOf_lt_of_mem present
      have inside : sizeOf entry.2 < sizeOf entry := by
        cases entry
        simp only [Prod.mk.sizeOf_spec]
        omega
      simp only [Json.object.sizeOf_spec]
      omega
  | _ => simp [children] at member

theorem induction {motive : Json → Prop}
    (step : ∀ json, (∀ child ∈ json.children, motive child) → motive json) :
    ∀ json, motive json := by
  intro json
  generalize sizeEq : sizeOf json = size
  induction size using Nat.strongRecOn generalizing json with
  | ind size ih =>
      apply step
      intro child member
      have smaller := sizeOf_child member
      exact ih (sizeOf child) (by omega) child rfl

mutual
def subvalues : Json → List Json
  | .array elements => .array elements :: elementSubvalues elements
  | .object members => .object members :: memberSubvalues members
  | primitive => [primitive]

def elementSubvalues : List Json → List Json
  | [] => []
  | element :: rest => subvalues element ++ elementSubvalues rest

def memberSubvalues : List (CString × Json) → List Json
  | [] => []
  | (_, value) :: rest => subvalues value ++ memberSubvalues rest
end

theorem self_mem_subvalues (json : Json) : json ∈ json.subvalues := by
  cases json <;> simp [subvalues]

theorem elementSubvalues_eq (elements : List Json) :
    elementSubvalues elements = elements.flatMap subvalues := by
  induction elements with
  | nil => rfl
  | cons element rest ih => simp [elementSubvalues, ih]

theorem memberSubvalues_eq (members : List (CString × Json)) :
    memberSubvalues members = (members.map Prod.snd).flatMap subvalues := by
  induction members with
  | nil => rfl
  | cons entry rest ih => simp [memberSubvalues, ih]

theorem subvalues_of_child {json child value : Json} (member : child ∈ json.children)
    (inside : value ∈ child.subvalues) : value ∈ json.subvalues := by
  cases json with
  | array elements =>
      rw [subvalues, elementSubvalues_eq]
      exact List.mem_cons_of_mem _ (List.mem_flatMap.mpr ⟨child, member, inside⟩)
  | object members =>
      rw [subvalues, memberSubvalues_eq]
      exact List.mem_cons_of_mem _ (List.mem_flatMap.mpr ⟨child, member, inside⟩)
  | _ => simp [children] at member

def memberNames : Json → List CString
  | .object members => members.map Prod.fst
  | _ => []

/-- An object is a `std::map`: its keys ascend strictly, at every depth. -/
def WellFormed (json : Json) : Prop :=
  ∀ value ∈ json.subvalues, value.memberNames.Pairwise (· < ·)

instance (json : Json) : Decidable json.WellFormed :=
  inferInstanceAs (Decidable (∀ value ∈ json.subvalues, _))

theorem child_of_member {members : List (CString × Json)} {key : CString} {value : Json}
    (member : (key, value) ∈ members) : value ∈ (Json.object members).children :=
  List.mem_map_of_mem (f := Prod.snd) member

theorem child_of_find {members : List (CString × Json)} {key : CString} {value : Json}
    (found : AssocMap.find key members = some value) : value ∈ (Json.object members).children :=
  child_of_member (AssocMap.mem_of_find found)

theorem WellFormed.child {json child : Json} (wellFormed : json.WellFormed)
    (member : child ∈ json.children) : child.WellFormed :=
  fun value inside => wellFormed value (subvalues_of_child member inside)

theorem WellFormed.member {json : Json} (wellFormed : json.WellFormed) (key : CString) :
    (json.member key).WellFormed := by
  have null : Json.WellFormed .null := by decide
  cases json with
  | object members =>
      cases found : AssocMap.find key members with
      | none => simpa [Json.member, found] using null
      | some value =>
          simp only [Json.member, found, Option.getD_some]
          exact wellFormed.child (child_of_find found)
  | _ => exact null

theorem WellFormed.ordered {members : List (CString × Json)}
    (wellFormed : (Json.object members).WellFormed) :
    (members.map Prod.fst).Pairwise (· < ·) :=
  wellFormed _ (self_mem_subvalues _)

theorem WellFormed.distinct {members : List (CString × Json)}
    (wellFormed : (Json.object members).WellFormed) : (members.map Prod.fst).Nodup :=
  wellFormed.ordered.imp fun less same => by
    subst same
    exact List.lt_irrefl _ less

theorem numberedFrom_snd (first : Nat) (elements : List Json) :
    (numberedFrom first elements).map Prod.snd = elements := by
  induction elements generalizing first with
  | nil => rfl
  | cons element rest ih => simp [numberedFrom, ih]

theorem numberedFrom_keys (first : Nat) (elements : List Json) :
    (numberedFrom first elements).map Prod.fst =
      (List.range' first elements.length).map numeral := by
  induction elements generalizing first with
  | nil => rfl
  | cons element rest ih => simp [numberedFrom, ih, List.range'_succ]

theorem items_distinct {json : Json} (wellFormed : json.WellFormed) :
    (json.items.map Prod.fst).Nodup := by
  cases json with
  | array elements =>
      rw [items, numberedFrom_keys]
      exact List.Nodup.map numeral_injective List.nodup_range'
  | object members => exact wellFormed.distinct
  | _ => simp [items]

theorem object_mem_children {json : Json} {entry : CString × Json}
    {members : List (CString × Json)} (member : entry ∈ json.items)
    (isObject : entry.2 = .object members) : entry.2 ∈ json.children := by
  have second : entry.2 ∈ json.items.map Prod.snd := List.mem_map.mpr ⟨entry, member, rfl⟩
  cases json with
  | array elements => rwa [items, numberedFrom_snd] at second
  | object others => exact second
  | _ => simp_all [items]

end Json

end SocketEvents
