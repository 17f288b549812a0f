import SocketEvents.ExtensionLoad
import SocketEvents.History
import SocketEvents.HostRuns

/-!
The wrapper in `smsdk_ext.cpp` that both SourceMod and Metamod call, and what its flags let
Metamod do. Which interface requests fail is a parameter of a call.
-/

namespace SocketEvents

open Execution Transition

structure SDKExtension where
  host : Host
  sourceMMLoaded : Bool := false
  weAreUnloaded : Bool := false
  weGotPauseChange : Bool := false

/-- What a call returns, and the text it leaves in the caller's buffer. -/
abbrev Answer := Bool × CString

namespace SDKExtension

abbrev Call (α : Type) := Exec Exception HostDefect SDKExtension α

def onHost {α : Type} (call : Host.Call α) : Call α := fun sdk =>
  match call.run sdk.host with
  | .ok value host => .ok value { sdk with host }
  | .error fault host => .error fault { sdk with host }

/-- `missing` is the text of the first request that fails. -/
def onExtensionLoad (missing : Option CString) (environment : LoadEnvironment) : Call Answer := do
  modify fun sdk => { sdk with weAreUnloaded := true }
  if !(← get).sourceMMLoaded then
    return (false, text "Metamod attach failed")
  else
    match missing with
    | some error => return (false, error)
    | none =>
        if ← onHost (Host.sdkOnLoad environment) then
          modify fun sdk => { sdk with weAreUnloaded := true }
          return (true, [])
        else
          return (false, [])

def onExtensionPauseChange (_state : Bool) : Call Unit :=
  modify fun sdk => { sdk with weGotPauseChange := true }

def onExtensionUnload : Call Unit := do
  modify fun sdk => { sdk with weAreUnloaded := true }
  onHost Host.sdkOnUnload

def load (missing : Option CString) : Call Answer := do
  match missing with
  | some error => return (false, error)
  | none =>
      modify fun sdk => { sdk with sourceMMLoaded := true }
      return (true, [])

def unload : Call Answer := do
  if !(← get).weAreUnloaded then
    return (false, text "This extension must be unloaded by SourceMod.")
  else
    return (true, [])

def pauseChange (refusal : CString) : Call Answer := do
  if !(← get).weGotPauseChange then
    return (false, refusal)
  else
    modify fun sdk => { sdk with weGotPauseChange := false }
    return (true, [])

def pause : Call Answer := pauseChange (text "This extension must be paused by SourceMod.")

def unpause : Call Answer := pauseChange (text "This extension must be unpaused by SourceMod.")

inductive Action
  | extensionLoad (missing : Option CString) (environment : LoadEnvironment)
  | extensionPauseChange (state : Bool)
  | extensionUnload
  | load (missing : Option CString)
  | unload
  | pause
  | unpause
  | gameFrame
  | native (plugin : Plugin) (native : ListenerNative)

section
variable (platform : Platform) (sourceMod : SourceMod)

def Action.run : Action → Call Answer
  | .extensionLoad missing environment => onExtensionLoad missing environment
  | .extensionPauseChange state => do
      onExtensionPauseChange state
      return (true, [])
  | .extensionUnload => do
      onExtensionUnload
      return (true, [])
  | .load missing => SDKExtension.load missing
  | .unload => SDKExtension.unload
  | .pause => SDKExtension.pause
  | .unpause => SDKExtension.unpause
  | .gameFrame => do
      onHost (Host.gameFrame platform sourceMod)
      return (true, [])
  | .native plugin called => do
      modify fun sdk => { sdk with host := { sdk.host with
        extension := called.run plugin sdk.host.extension } }
      return (true, [])

/-- An exception that leaves a call is the caller's affair; nothing follows a crash. -/
inductive Step (sdk : SDKExtension) : Action × Bool → SDKExtension → Prop
  | returned (action : Action) (answer : Answer) (after : SDKExtension) :
      (action.run platform sourceMod).run sdk = .ok answer after →
      Step sdk (action, answer.1) after
  | threw (action : Action) (exception : Exception) (after : SDKExtension) :
      (action.run platform sourceMod).run sdk = .error (.thrown exception) after →
      Step sdk (action, false) after

end

def LetsUnload (event : Action × Bool) : Prop :=
  (∃ missing environment, event.1 = .extensionLoad missing environment) ∨
    event.1 = .extensionUnload

def IsChange (event : Action × Bool) : Prop := ∃ state, event.1 = .extensionPauseChange state

def IsGrant (event : Action × Bool) : Prop :=
  event.2 = true ∧ (event.1 = .pause ∨ event.1 = .unpause)

/-- A change by SourceMod that Metamod has not used up. -/
def Pending (history : List (Action × Bool)) : Prop :=
  ∃ change, IsChange change ∧ History.Since change IsGrant history

def Paired (history : List (Action × Bool)) : Prop :=
  ∀ front grant back, history = front ++ grant :: back → IsGrant grant → Pending front

section
variable {platform : Platform} {sourceMod : SourceMod} {sdk after : SDKExtension}

theorem run_onHost {α : Type} (call : Host.Call α) (sdk : SDKExtension) :
    (onHost call).run sdk = match call.run sdk.host with
      | .ok value host => .ok value { sdk with host }
      | .error fault host => .error fault { sdk with host } := rfl

theorem resultState_onHost {α : Type} (call : Host.Call α) (sdk : SDKExtension) :
    resultState ((onHost call).run sdk) = { sdk with host := resultState (call.run sdk.host) } := by
  rw [run_onHost]
  cases call.run sdk.host <;> rfl

theorem resultState_answered (call : Call Unit) (sdk : SDKExtension) :
    resultState ((do
      call
      return ((true, []) : Answer) : Call Answer).run sdk) = resultState (call.run sdk) := by
  rw [EStateM.run_bind]
  cases call.run sdk <;> rfl

theorem resultState_onExtensionLoad (missing : Option CString) (environment : LoadEnvironment)
    (sdk : SDKExtension) :
    ∃ host, resultState ((onExtensionLoad missing environment).run sdk) =
        { sdk with weAreUnloaded := true, host } ∧
      (host = sdk.host ∨ sdk.sourceMMLoaded = true) := by
  cases attached : sdk.sourceMMLoaded with
  | false => exact ⟨sdk.host, by simp [onExtensionLoad, attached, resultState], .inl rfl⟩
  | true =>
      cases missing with
      | some error => exact ⟨sdk.host, by simp [onExtensionLoad, attached, resultState], .inl rfl⟩
      | none =>
          refine ⟨resultState ((Host.sdkOnLoad environment).run sdk.host), ?_, .inr rfl⟩
          cases loaded : (Host.sdkOnLoad environment).run sdk.host with
          | ok value host =>
              cases value <;> simp [onExtensionLoad, attached, run_onHost, loaded, resultState]
          | error fault host => simp [onExtensionLoad, attached, run_onHost, loaded, resultState]

theorem resultState_onExtensionUnload (sdk : SDKExtension) :
    resultState (onExtensionUnload.run sdk) =
      { sdk with weAreUnloaded := true, host := sdk.host.unloaded } := by
  simp only [onExtensionUnload, EStateM.run_bind, EStateM.run_modify, resultState_onHost,
    Host.run_sdkOnUnload]
  split <;> rfl

theorem run_pauseChange (refusal : CString) (sdk : SDKExtension) :
    (pauseChange refusal).run sdk =
      if sdk.weGotPauseChange then .ok (true, []) { sdk with weGotPauseChange := false }
      else .ok (false, refusal) sdk := by
  cases changed : sdk.weGotPauseChange <;> simp [pauseChange, changed]

theorem run_unload (sdk : SDKExtension) :
    unload.run sdk =
      if sdk.weAreUnloaded then .ok (true, []) sdk
      else .ok (false, text "This extension must be unloaded by SourceMod.") sdk := by
  cases unloaded : sdk.weAreUnloaded <;> simp [unload, unloaded]

theorem hooked_gameFrame (host : Host) :
    (resultState ((Host.gameFrame platform sourceMod).run host)).hooked = host.hooked := by
  simp only [Host.gameFrame, EStateM.run]
  split
  · rfl
  · cases onGameFrame platform sourceMod host.extension with
    | ok _ extension => rfl
    | error fault extension => cases fault <;> rfl

theorem Step.result {event : Action × Bool} (stepped : Step platform sourceMod sdk event after) :
    after = resultState ((event.1.run platform sourceMod).run sdk) := by
  cases stepped with
  | returned action answer after ran => rw [ran]; rfl
  | threw action exception after threw => rw [threw]; rfl

structure Effect (sdk : SDKExtension) (event : Action × Bool) (after : SDKExtension) : Prop where
  unloaded : after.weAreUnloaded = true ↔ sdk.weAreUnloaded = true ∨ LetsUnload event
  pending : after.weGotPauseChange = true ↔
    IsChange event ∨ sdk.weGotPauseChange = true ∧ ¬ IsGrant event
  granted : IsGrant event → sdk.weGotPauseChange = true
  hooked : (sdk.host.hooked = true → sdk.sourceMMLoaded = true) → after.host.hooked = true →
    after.sourceMMLoaded = true ∧ (sdk.host.hooked = true ∨ LetsUnload event)

theorem Effect.quiet {event : Action × Bool}
    (plain : ¬ (LetsUnload event ∨ IsChange event ∨ IsGrant event))
    (unloaded : after.weAreUnloaded = sdk.weAreUnloaded)
    (paused : after.weGotPauseChange = sdk.weGotPauseChange)
    (hooked : after.host.hooked = sdk.host.hooked)
    (attached : sdk.sourceMMLoaded = true → after.sourceMMLoaded = true) :
    Effect sdk event after := by
  simp only [not_or] at plain
  obtain ⟨load, change, grant⟩ := plain
  constructor
  · simp [unloaded, load]
  · simp [paused, change, grant]
  · exact fun grants => (grant grants).elim
  · intro held hooks
    rw [hooked] at hooks
    exact ⟨attached (held hooks), .inl hooks⟩

theorem effect_pauseChange {action : Action} {refusal : CString} {answered : Bool}
    (changes : action = .pause ∨ action = .unpause)
    (same : action.run platform sourceMod = pauseChange refusal)
    (stepped : Step platform sourceMod sdk (action, answered) after) :
    Effect sdk (action, answered) after := by
  have notLoad : ¬ LetsUnload (action, answered) := by
    rcases changes with rfl | rfl <;> simp [LetsUnload]
  have notChange : ¬ IsChange (action, answered) := by
    rcases changes with rfl | rfl <;> simp [IsChange]
  have grant : IsGrant (action, answered) ↔ answered = true := by simp [IsGrant, changes]
  cases stepped with
  | returned _ answer _ ran =>
      rw [same, run_pauseChange] at ran
      cases changed : sdk.weGotPauseChange <;> simp only [changed, if_true, Bool.false_eq_true,
        if_false] at ran <;> cases ran
      · exact .quiet (by simp [notLoad, notChange, grant]) rfl rfl rfl id
      · exact ⟨by simp [notLoad], by simp [notChange, grant], fun _ => changed,
          fun held hooked => ⟨held hooked, .inl hooked⟩⟩
  | threw _ exception _ threw =>
      rw [same, run_pauseChange] at threw
      split at threw <;> cases threw

theorem Step.effect {event : Action × Bool} (stepped : Step platform sourceMod sdk event after) :
    Effect sdk event after := by
  have result := stepped.result
  obtain ⟨action, answered⟩ := event
  cases action with
  | extensionLoad missing environment =>
      obtain ⟨host, same, attached⟩ := resultState_onExtensionLoad missing environment sdk
      obtain rfl : after = _ := result.trans same
      refine ⟨by simp [LetsUnload], by simp [IsChange, IsGrant], by simp [IsGrant], ?_⟩
      intro held hooked
      refine ⟨?_, .inr (.inl ⟨_, _, rfl⟩)⟩
      rcases attached with rfl | loaded
      · exact held hooked
      · exact loaded
  | extensionPauseChange state =>
      obtain rfl : after = { sdk with weGotPauseChange := true } := result
      exact ⟨by simp [LetsUnload], by simp [IsChange], by simp [IsGrant],
        fun held hooked => ⟨held hooked, .inl hooked⟩⟩
  | extensionUnload =>
      have same : resultState ((Action.extensionUnload.run platform sourceMod).run sdk) =
          { sdk with weAreUnloaded := true, host := sdk.host.unloaded } := by
        rw [← resultState_onExtensionUnload]
        exact resultState_answered _ sdk
      obtain rfl : after = _ := result.trans same
      exact ⟨by simp [LetsUnload], by simp [IsChange, IsGrant], by simp [IsGrant],
        fun _ hooked => by cases hooked⟩
  | load missing =>
      have same : after = sdk ∨ after = { sdk with sourceMMLoaded := true } := by
        cases missing with
        | some error => exact .inl result
        | none => exact .inr result
      rcases same with rfl | rfl
      · exact .quiet (by simp [LetsUnload, IsChange, IsGrant]) rfl rfl rfl id
      · exact .quiet (by simp [LetsUnload, IsChange, IsGrant]) rfl rfl rfl fun _ => rfl
  | unload =>
      have same : after = sdk := by
        rw [result, Action.run, run_unload]
        split <;> rfl
      subst same
      exact .quiet (by simp [LetsUnload, IsChange, IsGrant]) rfl rfl rfl id
  | pause => exact effect_pauseChange (.inl rfl) rfl stepped
  | unpause => exact effect_pauseChange (.inr rfl) rfl stepped
  | gameFrame =>
      have same : resultState ((Action.gameFrame.run platform sourceMod).run sdk) =
          { sdk with host := resultState ((Host.gameFrame platform sourceMod).run sdk.host) } := by
        rw [← resultState_onHost]
        exact resultState_answered _ sdk
      obtain rfl : after = _ := result.trans same
      exact .quiet (by simp [LetsUnload, IsChange, IsGrant]) rfl rfl (hooked_gameFrame sdk.host) id
  | native plugin called =>
      obtain rfl : after = { sdk with host := { sdk.host with
        extension := called.run plugin sdk.host.extension } } := result
      exact .quiet (by simp [LetsUnload, IsChange, IsGrant]) rfl rfl rfl id

theorem pending_snoc {history : List (Action × Bool)} {event : Action × Bool} :
    Pending (history ++ [event]) ↔ IsChange event ∨ Pending history ∧ ¬ IsGrant event := by
  simp only [Pending, History.since_append_singleton]
  constructor
  · rintro ⟨change, changes, rfl | ⟨since, kept⟩⟩
    · exact .inl changes
    · exact .inr ⟨⟨change, changes, since⟩, kept⟩
  · rintro (changes | ⟨⟨change, changes, since⟩, kept⟩)
    · exact ⟨event, changes, .inl rfl⟩
    · exact ⟨change, changes, .inr ⟨since, kept⟩⟩

theorem paired_snoc {history : List (Action × Bool)} {event : Action × Bool}
    (paired : Paired history) (granted : IsGrant event → Pending history) :
    Paired (history ++ [event]) := by
  intro front grant back split grants
  rcases List.eq_nil_or_concat back with rfl | ⟨middle, last, rfl⟩
  · obtain ⟨rfl, same⟩ := List.append_inj' split rfl
    obtain rfl := List.singleton_inj.mp same
    exact granted grants
  · rw [List.concat_eq_append, ← List.cons_append, ← List.append_assoc] at split
    exact paired front grant middle (List.append_inj' split rfl).1 grants

def installed : SDKExtension where
  host := ExtensionLife.created.host

structure Guarded (history : List (Action × Bool)) (sdk : SDKExtension) : Prop where
  unloaded : sdk.weAreUnloaded = true ↔ ∃ event ∈ history, LetsUnload event
  pending : sdk.weGotPauseChange = true ↔ Pending history
  paired : Paired history
  hooked : sdk.host.hooked = true → sdk.sourceMMLoaded = true ∧ sdk.weAreUnloaded = true

theorem Effect.guarded {history : List (Action × Bool)} {event : Action × Bool}
    (effect : Effect sdk event after) (guarded : Guarded history sdk) :
    Guarded (history ++ [event]) after where
  unloaded := by
    rw [effect.unloaded, guarded.unloaded]
    simp [or_and_right, exists_or]
  pending := by rw [effect.pending, guarded.pending, pending_snoc]
  paired := paired_snoc guarded.paired fun grants => guarded.pending.mp (effect.granted grants)
  hooked := by
    intro hooked
    obtain ⟨attached, asked⟩ := effect.hooked (fun held => (guarded.hooked held).1) hooked
    exact ⟨attached, effect.unloaded.mpr (asked.imp (fun held => (guarded.hooked held).2) id)⟩

theorem guarded_of_trace {path : List (SDKExtension × (Action × Bool))}
    (trace : Trace (Step platform sourceMod) installed path sdk) :
    Guarded (path.map Prod.snd) sdk := by
  induction trace with
  | refl =>
      refine ⟨by simp [installed], ?_, fun front grant back split => ?_, ?_⟩
      · simp [installed, Pending, History.not_since_nil]
      · simp at split
      · exact fun hooked => by cases hooked
  | snoc _ stepped ih =>
      rw [List.map_append, List.map_singleton]
      exact stepped.effect.guarded ih

/-- Metamod pauses and unpauses only on SourceMod's word, and once for each. Its unload is refused
only as long as SourceMod has not tried to load: never while the extension is hooked. -/
theorem metamod_guards {path : List (SDKExtension × (Action × Bool))}
    (trace : Trace (Step platform sourceMod) installed path sdk) :
    Paired (path.map Prod.snd) ∧
      (unload.run sdk = .ok (true, []) sdk ↔ ∃ event ∈ path.map Prod.snd, LetsUnload event) ∧
      (sdk.host.hooked = true →
        sdk.sourceMMLoaded = true ∧ unload.run sdk = .ok (true, []) sdk) := by
  have guarded := guarded_of_trace trace
  have granted : unload.run sdk = .ok (true, []) sdk ↔ sdk.weAreUnloaded = true := by
    rw [run_unload]
    cases sdk.weAreUnloaded <;> simp
  refine ⟨guarded.paired, granted.trans guarded.unloaded, fun hooked => ?_⟩
  obtain ⟨attached, unloaded⟩ := guarded.hooked hooked
  exact ⟨attached, granted.mpr unloaded⟩

end

theorem metamod_guards_loaded : ∃ sdk : SDKExtension, sdk.host.hooked = true ∧
    sdk.host.server.isSome = true ∧ unload.run sdk = .ok (true, []) sdk := by
  have start : Trace (Step .x64 keepingPlugins) installed [] installed := .refl
  have attached := start.snoc (.returned (.load none) (true, []) _ rfl)
  have loaded := attached.snoc
    (.returned (.extensionLoad none ExtensionLife.cleanEnvironment) (true, []) _ rfl)
  exact ⟨_, rfl, rfl, ((metamod_guards loaded).2.2 rfl).2⟩

end SDKExtension

end SocketEvents
