import SocketEvents.Dispatch
import SocketEvents.Transition

/-!
`Execute` over plugin functions that nobody has written down: each calls any natives, on the
handle it was given or on one it kept, and ends early when a native fails.
-/

namespace SocketEvents

open Execution Transition

/-- The call returns, or ends its plugin function with a native error. -/
def Ends {α : Type} (result : EStateM.Result (Fault NativeError Defect) Extension α)
    (after : Extension) : Prop :=
  match result with
  | .ok _ state => state = after
  | .error (.thrown _) state => state = after
  | .error (.undefined _) _ => False

theorem Ends.of_ok {α : Type} {result : EStateM.Result (Fault NativeError Defect) Extension α}
    {value : α} {after : Extension} (ran : result = .ok value after) : Ends result after := by
  rw [ran]
  rfl

theorem Ends.of_thrown {α : Type} {result : EStateM.Result (Fault NativeError Defect) Extension α}
    {error : NativeError} {after : Extension} (ran : result = .error (.thrown error) after) :
    Ends result after := by
  rw [ran]
  rfl

theorem Ends.state {α : Type} {result : EStateM.Result (Fault NativeError Defect) Extension α}
    {after : Extension} (ends : Ends result after) : resultState result = after := by
  cases result with
  | ok _ state => exact ends
  | error fault state =>
      cases fault with
      | thrown _ => exact ends
      | undefined _ => exact ends.elim

/-- Where `Execute` is: the function that runs, and the functions still to be called. -/
structure Serving where
  running : Option Listener := none
  waiting : List Listener := []
  extension : Extension

section
variable (platform : Platform)

inductive ServingStep (handle : Handle) (serving : Serving) : Serving → Prop
  | enter {listener : Listener} {rest : List Listener} :
      serving.running = none →
      serving.waiting = listener :: rest →
      ServingStep handle serving
        ⟨some listener, rest, serving.extension.calling handle [listener]⟩
  | native {listener : Listener} {after : Extension} (other : Handle) (call : PluginCall) :
      serving.running = some listener →
      (runCall platform listener other call).run serving.extension = .ok () after →
      ServingStep handle serving { serving with extension := after }
  | fail {listener : Listener} {error : NativeError} {after : Extension} (other : Handle)
      (call : PluginCall) :
      serving.running = some listener →
      (runCall platform listener other call).run serving.extension = .error (.thrown error) after →
      ServingStep handle serving { serving with running := none, extension := after }
  | leave {listener : Listener} :
      serving.running = some listener →
      ServingStep handle serving { serving with running := none }

/-- `OnGameFrame` has opened a handle for the message, and `Execute` has come this far. -/
def Executing (sourceMod : SourceMod) (message : EventMessage) (args : ArgsRef)
    (before : Extension) (serving : Serving) : Prop :=
  ∃ forward path, AssocMap.find message.name before.eventForwards = some forward ∧
    sourceMod.nextError before = 0 ∧
    Run (ServingStep platform (sourceMod.nextHandle before))
      { waiting := sourceMod.callOrder (before.forwardOf message.name).functions
        extension := before.opened message forward (sourceMod.nextHandle before) args }
      path serving

end

/-- What `OnGameFrame` does with the result of `Execute`. -/
def SourceMod.reported (sourceMod : SourceMod) (message : EventMessage) (before : Extension)
    (served : Extension) : Extension :=
  if sourceMod.executeResult (before.handlesRequested + 1) = plHandled then
    served.printing (sentText message.name) else served

/-- What the functions leave as it was when the handle was opened. -/
structure Serving.Keeps (opened : Extension) (serving : Serving) : Prop where
  sound : serving.extension.Sound none
  config : serving.extension.config = opened.config
  eventQueue : serving.extension.store.eventQueue = opened.store.eventQueue
  outcomes : serving.extension.outcomes = opened.outcomes

section
variable {platform : Platform} {sourceMod : SourceMod} {handle : Handle} {listener : Listener}
  {message : EventMessage} {args : ArgsRef} {extension before after opened : Extension}
  {serving next : Serving}

theorem SourceMod.reported_cases (sourceMod : SourceMod) (message : EventMessage)
    (before served : Extension) :
    sourceMod.reported message before served = served ∨
      sourceMod.reported message before served = served.printing (sentText message.name) := by
  unfold SourceMod.reported
  split
  · exact .inr rfl
  · exact .inl rfl

theorem effect_of_ends {inHand : Option ArgsRef} {call : PluginCall}
    (sound : extension.Sound inHand)
    (ends : Ends ((runCall platform listener handle call).run extension) after) :
    CallEffect listener handle extension after := by
  rcases runCall_cases platform listener handle call sound with ⟨state, ran, effect, _⟩ |
    ⟨state, ran, effect, _⟩ | ⟨defect, state, ran, _⟩
  · rw [ran] at ends
    have same : state = after := ends
    exact same ▸ effect
  · rw [ran] at ends
    have same : state = after := ends
    exact same ▸ effect
  · rw [ran] at ends
    exact False.elim ends

theorem Serving.Keeps.effect {other : Handle} {running : Option Listener}
    (keeps : serving.Keeps opened)
    (effect : CallEffect listener other serving.extension after) :
    Serving.Keeps opened { serving with running, extension := after } := by
  have serves := effect.serves keeps.sound
  exact ⟨effect.sound keeps.sound, serves.config.trans keeps.config,
    serves.eventQueue.trans keeps.eventQueue, serves.outcomes.trans keeps.outcomes⟩

theorem ServingStep.keeps (stepped : ServingStep platform handle serving next)
    (keeps : serving.Keeps opened) : next.Keeps opened := by
  cases stepped with
  | enter ready first =>
      exact ⟨keeps.sound.calling handle [_], keeps.config, keeps.eventQueue, keeps.outcomes⟩
  | native other call running ran =>
      exact keeps.effect (effect_of_ends keeps.sound (.of_ok ran))
  | fail other call running ran =>
      exact keeps.effect (effect_of_ends keeps.sound (.of_thrown ran))
  | leave running => exact ⟨keeps.sound, keeps.config, keeps.eventQueue, keeps.outcomes⟩

theorem Executing.keeps (sound : before.Sound (some args))
    (executing : Executing platform sourceMod message args before serving) :
    ∃ forward, serving.Keeps
      (before.opened message forward (sourceMod.nextHandle before) args) := by
  obtain ⟨forward, path, _, _, run⟩ := executing
  have opened := sound.opened message forward (sourceMod.nextHandle_fresh before)
  refine ⟨forward, run.invariant ⟨opened, rfl, rfl, rfl⟩ ?_⟩
  exact fun keeps stepped => stepped.keeps keeps

theorem Serving.Keeps.reported {served : Extension}
    (keeps : Serving.Keeps opened { extension := served }) (sourceMod : SourceMod)
    (message : EventMessage) (before : Extension) :
    Serving.Keeps opened { extension := sourceMod.reported message before served } := by
  rcases sourceMod.reported_cases message before served with same | same
  · rw [same]
    exact keeps
  · rw [same]
    exact ⟨keeps.sound.congr rfl rfl rfl rfl, keeps.config, keeps.eventQueue, keeps.outcomes⟩

/-! The functions of `SourceMod.callback` are among them -/

theorem servingRun_of_calls (platform : Platform) (handle : Handle) (listener : Listener)
    (waiting : List Listener) (calls : List PluginCall) (extension : Extension) :
    Leaves (fun after => ∃ path, Run (ServingStep platform handle)
        ⟨some listener, waiting, extension⟩ path { waiting, extension := after }) True
      ((calls.forM (runCall platform listener handle)).run extension) := by
  induction calls generalizing extension with
  | nil => exact ⟨_, .snoc .refl (.leave rfl)⟩
  | cons call rest ih =>
      simp only [List.forM, EStateM.run_bind]
      cases ran : (runCall platform listener handle call).run extension with
      | ok _ next =>
          refine (ih next).imp ?_ id
          rintro after ⟨_, later⟩
          have first : Run (ServingStep platform handle) ⟨some listener, waiting, extension⟩ _
              ⟨some listener, waiting, next⟩ := .snoc .refl (.native handle call rfl ran)
          exact ⟨_, first.append later⟩
      | error fault next =>
          cases fault with
          | thrown error => exact ⟨_, .snoc .refl (.fail handle call rfl ran)⟩
          | undefined _ => trivial

theorem servingRun_of_callback (rest : List Listener)
    (ran : (runCallback platform sourceMod handle listener).run extension = .ok () after) :
    ∃ path, Run (ServingStep platform handle) { waiting := listener :: rest, extension } path
      { waiting := rest, extension := after } := by
  have entered : Run (ServingStep platform handle) { waiting := listener :: rest, extension } _
      ⟨some listener, rest, extension.calling handle [listener]⟩ :=
    .snoc .refl (.enter rfl rfl)
  have served := (servingRun_of_calls platform handle listener rest (sourceMod.callback listener)
    (extension.calling handle [listener])).guarded
  have unfolded : (runCallback platform sourceMod handle listener).run extension =
      (guarded (fun _ => true)
        ((sourceMod.callback listener).forM (runCall platform listener handle))
        (return ())).run (extension.calling handle [listener]) := rfl
  rw [← unfolded, ran] at served
  obtain ⟨_, later⟩ := served
  exact ⟨_, entered.append later⟩

theorem servingRun_of_functions (functions : List Listener)
    (ran : (functions.forM (runCallback platform sourceMod handle)).run extension =
      .ok () after) :
    ∃ path, Run (ServingStep platform handle) { waiting := functions, extension } path
      { extension := after } := by
  -- each function starts in the state the one before it left
  induction functions generalizing extension with
  | nil =>
      obtain ⟨_, rfl⟩ := EStateM.Result.ok.inj ran
      exact ⟨_, .refl⟩
  | cons listener rest ih =>
      simp only [List.forM, EStateM.run_bind] at ran
      cases called : (runCallback platform sourceMod handle listener).run extension with
      | error fault next => simp [called] at ran
      | ok _ next =>
          rw [called] at ran
          obtain ⟨_, first⟩ := servingRun_of_callback rest called
          obtain ⟨_, later⟩ := ih ran
          exact ⟨_, first.append later⟩

theorem executing_of_dispatch {forward : ForwardRef} (valid : before.ForwardsValid)
    (found : AssocMap.find message.name before.eventForwards = some forward)
    (created : sourceMod.nextError before = 0)
    (ran : (dispatchMessage platform sourceMod message args).run before = .ok () after) :
    ∃ served, Executing platform sourceMod message args before { extension := served } ∧
      after = sourceMod.reported message before served := by
  rw [run_dispatch_executed platform args found created (forwardOf_of_find valid found)] at ran
  cases functions : ((sourceMod.callOrder (before.forwardOf message.name).functions).forM
      (runCallback platform sourceMod (sourceMod.nextHandle before))).run
        (before.opened message forward (sourceMod.nextHandle before) args) with
  | error fault served =>
      rw [functions] at ran
      cases ran
  | ok _ served =>
      rw [functions] at ran
      obtain ⟨path, run⟩ := servingRun_of_functions _ functions
      exact ⟨served, ⟨forward, path, found, created, run⟩, (EStateM.Result.ok.inj ran).2.symm⟩

end

end SocketEvents
