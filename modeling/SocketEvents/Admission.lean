import SocketEvents.DecodeLoop
import SocketEvents.ServerCore

/-!
Which messages `ParseMessageAndEnqueue` enqueues, and what it does with every other one.
-/

namespace SocketEvents

open Execution

def Authorised (tokens : List CString) (json : Json) : Prop :=
  tokens = [] ∨ ∃ token ∈ tokens, json.member (text "token") = .string token

def TokenMistyped (tokens : List CString) (json : Json) : Prop :=
  tokens ≠ [] ∧ json.contains (text "token") = true ∧
    (json.member (text "token")).isString = false

instance (tokens : List CString) (json : Json) : Decidable (TokenMistyped tokens json) :=
  inferInstanceAs (Decidable (_ ∧ _))

theorem contains_of_member {json : Json} {key : CString} (present : json.member key ≠ .null) :
    json.contains key = true := by
  cases json with
  | object members =>
      cases found : AssocMap.find key members with
      | none => simp [Json.member, found] at present
      | some value =>
          have inside := List.mem_map_of_mem (f := Prod.fst) (AssocMap.mem_of_find found)
          simpa [Json.contains] using inside
  | _ => exact (present rfl).elim

theorem isString_cases (json : Json) :
    (∃ value, json = .string value) ∨
      json.isString = false ∧ json.getString = .error (.typeError 302) := by
  cases json with
  | string value => exact .inl ⟨value, rfl⟩
  | _ => exact .inr ⟨rfl, rfl⟩

theorem TokenMistyped.not_authorised {tokens : List CString} {json : Json}
    (mistyped : TokenMistyped tokens json) : ¬ Authorised tokens json := by
  obtain ⟨asked, _, kind⟩ := mistyped
  rintro (none | ⟨token, _, given⟩)
  · exact asked none
  · simp [given, Json.isString] at kind

inductive Authentication (tokens : List CString) (json : Json) (store : EventStore) :
    EStateM.Result (Fault Exception Defect) EventStore Bool → Prop
  | passed : Authorised tokens json → Authentication tokens json store (.ok true store)
  | failed : ¬ Authorised tokens json → ¬ TokenMistyped tokens json →
      Authentication tokens json store (.ok false store)
  | threw : TokenMistyped tokens json →
      Authentication tokens json store (.error (.thrown (.typeError 302)) store)

theorem authenticate_outcome (tokens : List CString) (json : Json) (store : EventStore) :
    Authentication tokens json store ((authenticate tokens json).run store) := by
  unfold authenticate
  split
  · rename_i empty
    exact .passed (.inl (List.length_eq_zero_iff.mp empty))
  · rename_i some
    have asked : tokens ≠ [] := fun none => some (by simp [none])
    split
    · rename_i present
      rcases isString_cases (json.member (text "token")) with ⟨token, given⟩ | ⟨kind, threw⟩
      · have typed : ¬ TokenMistyped tokens json := by
          rintro ⟨_, _, kind⟩
          simp [given, Json.isString] at kind
        by_cases listed : token ∈ tokens
        · simp only [given, Json.getString, run_liftThrow_ok, EStateM.run_bind, listed,
            List.contains_eq_mem, decide_true]
          exact .passed (.inr ⟨token, listed, given⟩)
        · simp only [given, Json.getString, run_liftThrow_ok, EStateM.run_bind, listed,
            List.contains_eq_mem, decide_false]
          refine .failed ?_ typed
          rintro (none | ⟨other, member, given'⟩)
          · exact asked none
          · rw [given] at given'
            exact listed (Json.string.inj given' ▸ member)
      · simp only [threw, run_liftThrow_error, EStateM.run_bind]
        exact .threw ⟨asked, present, kind⟩
    · rename_i absent
      refine .failed ?_ fun mistyped => absent mistyped.2.1
      rintro (none | ⟨token, _, given⟩)
      · exact asked none
      · exact absent (contains_of_member (by simp [given]))

section
variable (platform : Platform) (config : Config) (json : Json)

/-- The message is authorised, and its name and arguments are there and convert. A value with
a string member is an object. -/
structure Admissible : Prop where
  authorised : Authorised config.tokens json
  named : ∃ name, json.member (text "event") = .string name
  present : json.contains (text "args") = true
  constructs : ∃ args, ofJson platform (json.member (text "args")) = .ok args

inductive MessageOutcome (store : EventStore) :
    EStateM.Result (Fault Exception Defect) EventStore MessageParseStatus → Prop
  | sent (name : CString) (args : EventArgs) : Authorised config.tokens json →
      json.member (text "event") = .string name → json.contains (text "args") = true →
      ofJson platform (json.member (text "args")) = .ok args →
      MessageOutcome store (.ok .ok (store.send name args))
  | authFailed : ¬ Authorised config.tokens json → ¬ TokenMistyped config.tokens json →
      MessageOutcome store (.ok .authFailed store)
  | tokenThrew : TokenMistyped config.tokens json →
      MessageOutcome store (.error (.thrown (.typeError 302)) store)
  | incomplete : Authorised config.tokens json →
      ¬ (json.contains (text "event") = true ∧ json.contains (text "args") = true) →
      MessageOutcome store (.ok .parseError store)
  | eventThrew : Authorised config.tokens json → json.contains (text "event") = true →
      json.contains (text "args") = true → (json.member (text "event")).isString = false →
      MessageOutcome store (.error (.thrown (.typeError 302)) store)
  | argsFailed (name : CString) (fault : Fault Exception Defect) :
      Authorised config.tokens json → json.member (text "event") = .string name →
      json.contains (text "args") = true →
      ofJson platform (json.member (text "args")) = .error fault →
      MessageOutcome store (.error fault store)

def parseMessageWith (construct : Json → Built) (config : Option Config) (json : Json) :
    Exec Exception Defect EventStore MessageParseStatus := do
  let config ← initialised config
  let authenticated ← authenticate config.tokens json
  if !authenticated then
    return .authFailed
  else if json.contains (text "event") && json.contains (text "args") then
    let name ← liftThrow (json.member (text "event")).getString
    let args ← liftFault (construct (json.member (text "args")))
    modify (EventStore.send name args)
    return .ok
  else
    return .parseError

theorem parseMessageWith_ofJson :
    parseMessageWith (ofJson platform) = parseMessageAndEnqueue platform := rfl

end

section
variable {platform : Platform} {config : Config} {json : Json} {store : EventStore}

theorem parseMessage_outcome (platform : Platform) (config : Config) (json : Json)
    (store : EventStore) :
    MessageOutcome platform config json store
      ((parseMessageAndEnqueue platform (some config) json).run store) := by
  have asked := authenticate_outcome config.tokens json store
  cases ran : (authenticate config.tokens json).run store with
  | error fault after =>
      rw [ran] at asked
      cases asked with
      | threw mistyped =>
          simp only [parseMessageAndEnqueue, initialised, pure_bind, EStateM.run_bind, ran]
          exact .tokenThrew mistyped
  | ok authenticated after =>
      rw [ran] at asked
      cases asked with
      | failed refused typed =>
          simp only [parseMessageAndEnqueue, initialised, pure_bind, EStateM.run_bind, ran]
          exact .authFailed refused typed
      | passed authorised =>
          simp only [parseMessageAndEnqueue, initialised, pure_bind, EStateM.run_bind, ran,
            Bool.not_true, Bool.false_eq_true, if_false]
          by_cases complete :
              json.contains (text "event") = true ∧ json.contains (text "args") = true
          · rw [if_pos (by simpa using complete)]
            rcases isString_cases (json.member (text "event")) with ⟨name, named⟩ |
              ⟨kind, threw⟩
            · cases built : ofJson platform (json.member (text "args")) with
              | error fault =>
                  simp only [named, Json.getString, run_liftThrow_ok, EStateM.run_bind,
                    run_liftFault_error]
                  exact .argsFailed name fault authorised named complete.2 built
              | ok args =>
                  simp only [named, Json.getString, run_liftThrow_ok, EStateM.run_bind,
                    run_liftFault_ok, EStateM.run_modify]
                  exact .sent name args authorised named complete.2 built
            · simp only [threw, run_liftThrow_error, EStateM.run_bind]
              exact .eventThrew authorised complete.1 complete.2 kind
          · rw [if_neg (by simpa using complete)]
            exact .incomplete authorised complete

theorem parseMessageWith_unauthorised (construct : Json → Built)
    (refused : ¬ Authorised config.tokens json) :
    (parseMessageWith construct (some config) json).run store =
      (parseMessageAndEnqueue platform (some config) json).run store := by
  rw [← parseMessageWith_ofJson]
  have asked := authenticate_outcome config.tokens json store
  cases ran : (authenticate config.tokens json).run store with
  | error fault after => simp only [parseMessageWith, initialised, pure_bind, EStateM.run_bind, ran]
  | ok authenticated after =>
      rw [ran] at asked
      cases asked with
      | failed _ _ =>
          simp only [parseMessageWith, initialised, pure_bind, EStateM.run_bind, ran]
          rfl
      | passed authorised => exact (refused authorised).elim

end

section
variable (platform : Platform) (config : Config) (json : Json) (store : EventStore)

structure AdmissionControl : Prop where
  defined : ∀ defect after, (parseMessageAndEnqueue platform (some config) json).run store ≠
    .error (.undefined defect) after
  appends : (∃ message,
      (resultState ((parseMessageAndEnqueue platform (some config) json).run
        store)).eventQueue.contents = store.eventQueue.contents ++ [message]) ↔
    Admissible platform config json
  sent : ∀ name args, Admissible platform config json →
    json.member (text "event") = .string name →
    ofJson platform (json.member (text "args")) = .ok args →
      ∃ after, (parseMessageAndEnqueue platform (some config) json).run store = .ok .ok after ∧
        store.Adds name args after
  unchanged : ¬ Admissible platform config json →
    resultState ((parseMessageAndEnqueue platform (some config) json).run store) = store
  unauthorised : ¬ Authorised config.tokens json → ∀ construct,
    (parseMessageWith construct (some config) json).run store =
      (parseMessageAndEnqueue platform (some config) json).run store

variable {platform config json store}

theorem MessageOutcome.sent_iff
    {result : EStateM.Result (Fault Exception Defect) EventStore MessageParseStatus}
    (outcome : MessageOutcome platform config json store result) :
    (∃ name args, Admissible platform config json ∧ json.member (text "event") = .string name ∧
      ofJson platform (json.member (text "args")) = .ok args ∧
      result = .ok .ok (store.send name args)) ∨
    (¬ Admissible platform config json ∧ resultState result = store) := by
  cases outcome with
  | sent name args authorised named present built =>
      exact .inl ⟨name, args, ⟨authorised, ⟨name, named⟩, present, ⟨args, built⟩⟩, named, built,
        rfl⟩
  | authFailed refused typed => exact .inr ⟨fun admissible => refused admissible.authorised, rfl⟩
  | tokenThrew mistyped =>
      exact .inr ⟨fun admissible => mistyped.not_authorised admissible.authorised, rfl⟩
  | incomplete authorised missing =>
      refine .inr ⟨fun admissible => ?_, rfl⟩
      obtain ⟨name, named⟩ := admissible.named
      exact missing ⟨contains_of_member (by simp [named]), admissible.present⟩
  | eventThrew authorised event args kind =>
      refine .inr ⟨fun admissible => ?_, rfl⟩
      obtain ⟨name, named⟩ := admissible.named
      simp [named, Json.isString] at kind
  | argsFailed name fault authorised named present failed =>
      refine .inr ⟨fun admissible => ?_, rfl⟩
      obtain ⟨args, built⟩ := admissible.constructs
      simp [failed] at built

theorem MessageOutcome.undefined
    {result : EStateM.Result (Fault Exception Defect) EventStore MessageParseStatus}
    (outcome : MessageOutcome platform config json store result) {defect : Defect}
    {after : EventStore} (crashed : result = .error (.undefined defect) after) :
    ofJson platform (json.member (text "args")) = .error (.undefined defect) := by
  cases outcome with
  | argsFailed name fault authorised named present failed =>
      simp only [EStateM.Result.error.injEq] at crashed
      rw [failed, crashed.1]
  | _ => simp at crashed

theorem parseMessage_admission (wellFormed : json.WellFormed)
    (shape : json.member (text "args") = .null ∨
      ∃ members, json.member (text "args") = .object members)
    (plain : (json.member (text "args")).PlainNames) :
    AdmissionControl platform config json store := by
  have outcome := parseMessage_outcome platform config json store
  have settled := ofJson_settled platform _ (wellFormed.member (text "args"))
  have defined : ∀ defect after,
      (parseMessageAndEnqueue platform (some config) json).run store ≠
        .error (.undefined defect) after := by
    intro defect after crashed
    cases settled with
    | returned _ same _ _ _ => simp [outcome.undefined crashed] at same
    | threw _ same _ _ _ => simp [outcome.undefined crashed] at same
    | crashed _ _ _ hazard => exact plain.not_hazard shape hazard
  rcases outcome.sent_iff with ⟨name, args, admissible, named, built, ran⟩ | ⟨refused, same⟩
  · refine ⟨defined, ⟨fun _ => admissible, fun _ => ⟨_, by rw [ran]; rfl⟩⟩, ?_,
      fun refused => (refused admissible).elim, fun refused _ => parseMessageWith_unauthorised _
      refused⟩
    intro name' args' _ named' built'
    rw [named] at named'
    rw [built] at built'
    rw [← Json.string.inj named', ← Except.ok.inj built']
    exact ⟨_, ran, store.adds_send name args⟩
  · refine ⟨defined, ⟨?_, fun admissible => (refused admissible).elim⟩,
      fun _ _ admissible => (refused admissible).elim, fun _ => same,
      fun refused _ => parseMessageWith_unauthorised _ refused⟩
    rintro ⟨message, grown⟩
    simp [same] at grown

end

def tokenMessage : Json :=
  .object [(text "args", .object [(text "count", .numberUnsigned 3)]),
    (text "event", .string (text "score")), (text "token", .string (text "secret"))]

theorem parseMessage_admission_tokenMessage : ∃ args,
    ofJson .x86 (tokenMessage.member (text "args")) = .ok args ∧
    AdmissionControl .x86 { tokens := [text "secret"] } tokenMessage {} ∧
    ∃ after, (parseMessageAndEnqueue .x86 (some { tokens := [text "secret"] }) tokenMessage).run
      {} = .ok .ok after ∧ EventStore.Adds (text "score") args {} after := by
  have control : AdmissionControl .x86 { tokens := [text "secret"] } tokenMessage {} :=
    parseMessage_admission (by decide) (.inr ⟨_, rfl⟩) (by decide)
  have admissible : Admissible .x86 { tokens := [text "secret"] } tokenMessage :=
    control.appends.mp ⟨_, rfl⟩
  exact ⟨_, rfl, control, control.sent _ _ admissible rfl rfl⟩

end SocketEvents
