import SocketEvents.DecodeVerdict
import SocketEvents.ServerCore

/-!
The configuration file: `from_json` and `to_json` as the macro in `Config.h` generates them.
-/

namespace SocketEvents

namespace Json

def valueOr {T : Type} (get : Json → Except Exception T) (key : CString) (default : T) :
    Json → Except Exception T
  | .object members =>
      match AssocMap.find key members with
      | some value => get value
      | none => .ok default
  | _ => .error (.typeError 306)

def getStrings : Json → Except Exception (List CString)
  | .array elements => elements.mapM getString
  | _ => .error (.typeError 302)

def isStrings : Json → Bool
  | .array elements => elements.all isString
  | _ => false

end Json

namespace Config

open Execution

/-- A member that is absent keeps its default. -/
def ofJson (json : Json) : Except Exception Config := do
  let default : Config := {}
  let websockets ← json.valueOr Json.getBool (text "websockets") default.websockets
  let port ← json.valueOr Json.getInt32 (text "port") default.port
  let secure ← json.valueOr Json.getBool (text "secure") default.secure
  let publicKeyFile ← json.valueOr Json.getString (text "public_key_file") default.publicKeyFile
  let eventsPerFrame ← json.valueOr Json.getInt32 (text "eventsPerFrame") default.eventsPerFrame
  let tokens ← json.valueOr Json.getStrings (text "tokens") default.tokens
  return { websockets, port, secure, publicKeyFile, eventsPerFrame, tokens }

def toJson (config : Config) : Json :=
  .object [(text "eventsPerFrame", .numberInteger config.eventsPerFrame.toInt64),
    (text "port", .numberInteger config.port.toInt64),
    (text "public_key_file", .string config.publicKeyFile),
    (text "secure", .boolean config.secure),
    (text "tokens", .array (config.tokens.map .string)),
    (text "websockets", .boolean config.websockets)]

def fields : List (CString × (Json → Bool)) :=
  [(text "websockets", Json.isBoolean), (text "port", Json.isArithmetic),
    (text "secure", Json.isBoolean), (text "public_key_file", Json.isString),
    (text "eventsPerFrame", Json.isArithmetic), (text "tokens", Json.isStrings)]

def Accepted (json : Json) : Prop :=
  ∃ members, json = .object members ∧ ∀ field ∈ fields, ∀ value,
    AssocMap.find field.1 members = some value → field.2 value = true

theorem getStrings_converts : Converts Json.getStrings Json.isStrings := by
  constructor
  · intro json
    cases json with
    | array elements =>
        simp only [Json.getStrings, Json.isStrings, List.all_eq_true]
        rcases mapM_cases Json.getString elements with ⟨values, mapped, related⟩ |
          ⟨front, item, back, error, split, _, failed, mapped⟩
        · refine iff_of_true ⟨values, mapped⟩ fun element member => ?_
          obtain ⟨index, below, rfl⟩ := List.mem_iff_getElem.mp member
          exact (getString_converts.accepts _).mp
            ⟨_, related.get below (related.length_eq ▸ below)⟩
        · refine iff_of_false (by simp [mapped]) fun all => ?_
          obtain ⟨value, converted⟩ := (getString_converts.accepts item).mpr
            (all item (by simp [split]))
          simp [failed] at converted
    | _ => simp [Json.getStrings, Json.isStrings]
  · intro json exception failed
    cases json with
    | array elements =>
        rcases mapM_cases Json.getString elements with ⟨values, mapped, _⟩ |
          ⟨_, item, _, error, _, _, threw, mapped⟩
        · simp [Json.getStrings, mapped] at failed
        · simp only [Json.getStrings, mapped, Except.error.injEq] at failed
          exact failed ▸ getString_converts.raises item error threw
    | _ =>
        simp only [Json.getStrings, Except.error.injEq] at failed
        exact failed ▸ rfl

section
variable {T : Type} {get : Json → Except Exception T} {pred : Json → Bool}

theorem valueOr_object (converts : Converts get pred) (key : CString) (default : T)
    (members : List (CString × Json)) :
    (∃ value, (Json.object members).valueOr get key default = .ok value) ↔
      ∀ value, AssocMap.find key members = some value → pred value = true := by
  simp only [Json.valueOr]
  cases AssocMap.find key members with
  | none => simp
  | some value => simpa using converts.accepts value

theorem valueOr_raises (converts : Converts get pred) {key : CString} {default : T} {json : Json}
    {exception : Exception} (failed : json.valueOr get key default = .error exception) :
    exception.isStd = true := by
  cases json with
  | object members =>
      simp only [Json.valueOr] at failed
      split at failed
      · exact converts.raises _ _ failed
      · simp at failed
  | _ =>
      simp only [Json.valueOr, Except.error.injEq] at failed
      exact failed ▸ rfl

end

structure Reads (json : Json) (config : Config) : Prop where
  websockets : json.valueOr Json.getBool (text "websockets") true = .ok config.websockets
  port : json.valueOr Json.getInt32 (text "port") 25570 = .ok config.port
  secure : json.valueOr Json.getBool (text "secure") true = .ok config.secure
  publicKeyFile : json.valueOr Json.getString (text "public_key_file") [] =
    .ok config.publicKeyFile
  eventsPerFrame : json.valueOr Json.getInt32 (text "eventsPerFrame") 4 =
    .ok config.eventsPerFrame
  tokens : json.valueOr Json.getStrings (text "tokens") [] = .ok config.tokens
  publicKeyPem : config.publicKeyPem = []

theorem bind_ok {α β : Type} {call : Except Exception α} {next : α → Except Exception β}
    {result : β} (returned : call >>= next = .ok result) :
    ∃ value, call = .ok value ∧ next value = .ok result := by
  cases call with
  | error exception => cases returned
  | ok value => exact ⟨value, rfl, returned⟩

theorem ofJson_ok_iff {json : Json} {config : Config} :
    ofJson json = .ok config ↔ Reads json config := by
  constructor
  · intro read
    obtain ⟨websockets, readWebsockets, read⟩ := bind_ok read
    obtain ⟨port, readPort, read⟩ := bind_ok read
    obtain ⟨secure, readSecure, read⟩ := bind_ok read
    obtain ⟨publicKeyFile, readFile, read⟩ := bind_ok read
    obtain ⟨eventsPerFrame, readEvents, read⟩ := bind_ok read
    obtain ⟨tokens, readTokens, read⟩ := bind_ok read
    obtain rfl := Except.ok.inj read
    exact ⟨readWebsockets, readPort, readSecure, readFile, readEvents, readTokens, rfl⟩
  · rintro ⟨websockets, port, secure, publicKeyFile, eventsPerFrame, tokens, publicKeyPem⟩
    simp only [ofJson, websockets, port, secure, publicKeyFile, eventsPerFrame, tokens, bind,
      Except.bind, pure, Except.pure]
    rw [← publicKeyPem]

theorem ofJson_accepts_iff (json : Json) :
    (∃ config, ofJson json = .ok config) ↔ Accepted json := by
  simp only [ofJson_ok_iff]
  cases json with
  | object members =>
      have websockets := valueOr_object getBool_converts (text "websockets") true members
      have port := valueOr_object getInt32_converts (text "port") 25570 members
      have secure := valueOr_object getBool_converts (text "secure") true members
      have publicKeyFile := valueOr_object getString_converts (text "public_key_file") [] members
      have eventsPerFrame := valueOr_object getInt32_converts (text "eventsPerFrame") 4 members
      have tokens := valueOr_object getStrings_converts (text "tokens") [] members
      simp only [Accepted, Json.object.injEq, exists_eq_left', fields, List.forall_mem_cons,
        List.not_mem_nil, false_imp_iff, implies_true, and_true]
      rw [← websockets, ← port, ← secure, ← publicKeyFile, ← eventsPerFrame, ← tokens]
      constructor
      · rintro ⟨config, reads⟩
        exact ⟨⟨_, reads.websockets⟩, ⟨_, reads.port⟩, ⟨_, reads.secure⟩, ⟨_, reads.publicKeyFile⟩,
          ⟨_, reads.eventsPerFrame⟩, ⟨_, reads.tokens⟩⟩
      · rintro ⟨⟨websockets, w⟩, ⟨port, p⟩, ⟨secure, s⟩, ⟨publicKeyFile, f⟩, ⟨eventsPerFrame, e⟩,
          ⟨tokens, t⟩⟩
        exact ⟨{ websockets, port, secure, publicKeyFile, eventsPerFrame, tokens },
          w, p, s, f, e, t, rfl⟩
  | _ =>
      refine iff_of_false ?_ (by simp [Accepted])
      rintro ⟨config, reads⟩
      have failed := reads.secure
      simp [Json.valueOr] at failed

theorem bind_raises {α β : Type} {call : Except Exception α} {next : α → Except Exception β}
    (first : ∀ exception, call = .error exception → exception.isStd = true)
    (second : ∀ value exception, next value = .error exception → exception.isStd = true) :
    ∀ exception, call >>= next = .error exception → exception.isStd = true := by
  intro exception failed
  cases returned : call with
  | error threw =>
      rw [returned] at failed
      cases failed
      exact first exception returned
  | ok value =>
      rw [returned] at failed
      exact second value exception failed

theorem ofJson_raises (json : Json) :
    ∀ exception, ofJson json = .error exception → exception.isStd = true := by
  refine bind_raises (fun _ => valueOr_raises getBool_converts) fun _ =>
    bind_raises (fun _ => valueOr_raises getInt32_converts) fun _ =>
    bind_raises (fun _ => valueOr_raises getBool_converts) fun _ =>
    bind_raises (fun _ => valueOr_raises getString_converts) fun _ =>
    bind_raises (fun _ => valueOr_raises getInt32_converts) fun _ =>
    bind_raises (fun _ => valueOr_raises getStrings_converts) fun _ => ?_
  intro exception failed
  cases failed

theorem strings_of_converted {elements : List Json} {values : List CString}
    (converted : List.Forall₂ (fun element value => element.getString = .ok value) elements
      values) : elements = values.map .string := by
  induction converted with
  | nil => rfl
  | @cons element value _ _ read _ ih =>
      cases element with
      | string => rw [ih, List.map_cons, Except.ok.inj read]
      | _ => cases read

theorem getStrings_ok_iff {json : Json} {values : List CString} :
    Json.getStrings json = .ok values ↔ json = .array (values.map .string) := by
  constructor
  · intro read
    cases json with
    | array elements =>
        simp only [Json.getStrings] at read
        rcases mapM_cases Json.getString elements with ⟨converted, mapped, related⟩ |
          ⟨_, _, _, _, _, _, _, mapped⟩
        · obtain rfl : converted = values := Except.ok.inj (mapped.symm.trans read)
          rw [strings_of_converted related]
        · cases mapped.symm.trans read
    | _ => cases read
  · rintro rfl
    simp only [Json.getStrings]
    induction values with
    | nil => rfl
    | cons value rest ih =>
        rw [List.map_cons, List.mapM_cons, ih]
        rfl

theorem ofJson_toJson (config : Config) :
    ofJson config.toJson = .ok { config with publicKeyPem := [] } := by
  rw [ofJson_ok_iff]
  have integer : ∀ value : Int32, Json.getInt32 (.numberInteger value.toInt64) = .ok value :=
    fun value => congrArg Except.ok (Int32.toInt32_toInt64 value)
  exact ⟨rfl, integer config.port, rfl, rfl, integer config.eventsPerFrame,
    getStrings_ok_iff.mpr rfl, rfl⟩

end Config

end SocketEvents
