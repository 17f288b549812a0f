import SocketEvents.ExtensionLoadCore
import SocketEvents.ExtensionRun

/-!
What loading, running and unloading the extension does to its server, its hook and its forwards.
-/

namespace SocketEvents

open Execution
open Transition

def ForwardsListed (extension : Extension) : Prop :=
  extension.eventForwards.map Prod.snd = List.range extension.forwards.length

section
variable {extension : Extension}

theorem listed_getOrAddForward (listed : ForwardsListed extension) (name : CString) :
    ForwardsListed (extension.getOrAddForward name).2 := by
  unfold Extension.getOrAddForward
  split
  · exact listed
  · rename_i absent
    simp only [ForwardsListed] at listed ⊢
    rw [AssocMap.insert_of_absent absent]
    simp [listed, List.range_succ]

theorem listed_native (listed : ForwardsListed extension) (plugin : Plugin)
    (native : ListenerNative) : ForwardsListed (native.run plugin extension) := by
  have created := listed_getOrAddForward listed native.name
  rw [ListenerNative.run_eq]
  simpa [ForwardsListed, Extension.modifyForward] using created

theorem preserves_of_forwards {α : Type} {call : GameThread α}
    (same : ∀ extension, (resultState (call.run extension)).eventForwards =
        extension.eventForwards ∧
      (resultState (call.run extension)).forwards = extension.forwards) :
    Preserves ForwardsListed call := by
  intro extension listed
  obtain ⟨names, forwards⟩ := same extension
  simpa [ForwardsListed, names, forwards] using listed

theorem preserves_deleteArgs (args : ArgsRef) : Preserves ForwardsListed (deleteArgs args) := by
  refine preserves_of_forwards fun extension => ?_
  simp only [deleteArgs, EStateM.run_bind, EStateM.run_get]
  cases extension.store.objects.free args <;> exact ⟨rfl, rfl⟩

theorem preserves_getEventArgsFromHandle (handle : Handle) :
    Preserves ForwardsListed (getEventArgsFromHandle handle) := by
  refine preserves_of_forwards fun extension => ?_
  simp only [getEventArgsFromHandle, EStateM.run_bind, EStateM.run_get]
  cases AssocMap.find handle extension.handles <;> exact ⟨rfl, rfl⟩

theorem preserves_deleteHandle (handle : Handle) :
    Preserves ForwardsListed (deleteHandle handle) :=
  .bind (preserves_getEventArgsFromHandle handle) fun args =>
    .bind (.modify fun _ listed => listed) fun _ => preserves_deleteArgs args

theorem preserves_onEventArgs {α : Type} (args : ArgsRef) (call : Lookup α) :
    Preserves ForwardsListed (onEventArgs args call) := by
  refine preserves_of_forwards fun extension => ?_
  simp only [onEventArgs, EStateM.run_bind, EStateM.run_get]
  cases extension.store.objects.load args with
  | none => exact ⟨rfl, rfl⟩
  | some tree =>
      cases ran : call.run tree with
      | ok value tree =>
          simp only [ran]
          exact ⟨rfl, rfl⟩
      | error fault tree =>
          simp only [ran]
          cases fault <;> exact ⟨rfl, rfl⟩

theorem preserves_readNative (platform : Platform) (listener : Listener) (handle : Handle)
    (native : EventArgsNative) (key : Option CString) :
    Preserves ForwardsListed (readNative platform listener handle native key) := by
  refine .bind (.guarded (preserves_getEventArgsFromHandle handle) ?_) fun args =>
    .bind ?_ fun path => .bind (preserves_onEventArgs args _) fun result =>
      .modify fun _ listed => listed
  · exact .bind (.modify fun _ listed => listed) fun _ => .raise _
  · cases key with
    | none => exact .undefined _
    | some key => exact .pure key

theorem preserves_runCall (platform : Platform) (listener : Listener) (handle : Handle)
    (call : PluginCall) : Preserves ForwardsListed (runCall platform listener handle call) := by
  cases call with
  | read native key => exact preserves_readNative platform listener handle native key
  | deleteHandle => exact preserves_deleteHandle handle
  | listeners native => exact .modify fun _ listed => listed_native listed listener.plugin native

theorem preserves_runCallback (platform : Platform) (sourceMod : SourceMod) (handle : Handle)
    (listener : Listener) :
    Preserves ForwardsListed (runCallback platform sourceMod handle listener) :=
  .bind (.modify fun _ listed => listed) fun _ =>
    .guarded (.forM fun call _ => preserves_runCall platform listener handle call) (.pure _)

theorem preserves_print (toPrint : CString) : Preserves ForwardsListed (print toPrint) :=
  .modify fun _ listed => listed

theorem preserves_recordOutcome (message : EventMessage) (outcome : Outcome) :
    Preserves ForwardsListed (recordOutcome message outcome) :=
  .modify fun _ listed => listed

theorem preserves_execute (platform : Platform) (sourceMod : SourceMod) (message : EventMessage)
    (forward : ForwardRef) (handle : Handle) :
    Preserves ForwardsListed (execute platform sourceMod message forward handle) := by
  refine .bind (preserves_recordOutcome _ _) fun _ => ?_
  refine .bind (.of_state fun _ => rfl) fun current => ?_
  split
  · exact .bind (.forM fun listener _ => preserves_runCallback platform sourceMod handle listener)
      fun _ => .pure _
  · exact .undefined _

theorem preserves_createHandle (sourceMod : SourceMod) (args : ArgsRef) :
    Preserves ForwardsListed (createHandle sourceMod args) := by
  refine preserves_of_forwards fun extension => ?_
  simp only [createHandle, EStateM.run_bind, EStateM.run_get]
  split <;> exact ⟨rfl, rfl⟩

theorem preserves_dispatchMessage (platform : Platform) (sourceMod : SourceMod)
    (message : EventMessage) (args : ArgsRef) :
    Preserves ForwardsListed (dispatchMessage platform sourceMod message args) := by
  refine .bind (.of_state fun _ => rfl) fun current => ?_
  split
  · refine .bind (preserves_createHandle sourceMod args) fun created => ?_
    by_cases success : created.2 = 0
    · simp only [success, if_true]
      refine .bind (preserves_execute platform sourceMod message _ _) fun result => ?_
      split
      · exact preserves_print _
      · exact .pure _
    · simp only [success, if_false]
      exact .bind (preserves_recordOutcome _ _) fun _ => .bind (preserves_print _) fun _ =>
        preserves_deleteArgs args
  · exact .bind (preserves_recordOutcome _ _) fun _ => .bind (preserves_print _) fun _ =>
      preserves_deleteArgs args

theorem preserves_tryDequeue : Preserves ForwardsListed tryDequeue :=
  preserves_of_forwards fun _ => ⟨rfl, rfl⟩

theorem preserves_onGameFrameFrom (platform : Platform) (sourceMod : SourceMod)
    (remaining : Nat) :
    Preserves ForwardsListed (onGameFrameFrom platform sourceMod remaining) := by
  induction remaining with
  | zero => exact .pure _
  | succ remaining ih =>
      refine .bind preserves_tryDequeue fun dequeued => ?_
      split
      · split
        · exact .bind (preserves_dispatchMessage platform sourceMod _ _) fun _ => ih
        · exact .bind (preserves_recordOutcome _ _) fun _ => preserves_print _
      · exact .pure _

theorem preserves_onGameFrame (platform : Platform) (sourceMod : SourceMod) :
    Preserves ForwardsListed (onGameFrame platform sourceMod) :=
  .bind (.of_state fun _ => rfl) fun _ => preserves_onGameFrameFrom platform sourceMod _

end

def LoadEnvironment.ReachesHook (environment : LoadEnvironment) : Prop :=
  ∃ present, environment.configExists = .ok present ∧
    (present = true → ∀ exception, environment.configParsed = .error exception →
      exception.isStd = true)

namespace Host

def Configures (before after : Host) : Prop :=
  ∃ config printed,
    after = { before with extension := { before.extension with config, printed } }

theorem Configures.refl (host : Host) : Configures host host := ⟨_, _, rfl⟩

theorem Configures.trans {first second third : Host} (earlier : Configures first second)
    (later : Configures second third) : Configures first third := by
  obtain ⟨_, _, rfl⟩ := earlier
  obtain ⟨config, printed, rfl⟩ := later
  exact ⟨config, printed, rfl⟩

theorem configures_setConfig (config : Config) (host : Host) :
    Configures host (host.setConfig config) := ⟨config, _, rfl⟩

theorem run_print (toPrint : CString) (host : Host) :
    ∃ after, (print toPrint).run host = .ok () after ∧ Configures host after :=
  ⟨_, rfl, _, _, rfl⟩

theorem run_announce (config : Config) (host : Host) :
    ∃ after, (announce config).run host = .ok () after ∧ Configures host after := by
  obtain ⟨first, started, configured⟩ :=
    run_print (text "Started event server on port: " ++ text (toString config.port.toInt)) host
  cases websockets : config.websockets with
  | true => exact ⟨first, by simp only [announce, EStateM.run_bind, started, websockets]; rfl,
      configured⟩
  | false =>
      obtain ⟨after, ran, configured'⟩ := run_print _ first
      refine ⟨after, ?_, configured.trans configured'⟩
      simp only [announce, EStateM.run_bind, started, websockets]
      exact ran

section
variable (environment : LoadEnvironment) (host : Host)

theorem run_parseConfig :
    ((∀ exception, environment.configParsed = .error exception → exception.isStd = true) ∧
      ∃ after, (parseConfig environment).run host = .ok () after ∧ Configures host after) ∨
      ∃ exception, environment.configParsed = .error exception ∧ exception.isStd = false ∧
        (parseConfig environment).run host = .error (.thrown exception) host := by
  rw [parseConfig, run_guarded]
  cases parsed : environment.configParsed with
  | ok config => exact .inl ⟨by simp, _, rfl, configures_setConfig config host⟩
  | error exception =>
      cases std : exception.isStd with
      | true =>
          obtain ⟨after, ran, configured⟩ :=
            run_print (text "Failed to parse config, defaults will be used.") host
          exact .inl ⟨by simp [std], after, by simpa [std] using ran, configured⟩
      | false => exact .inr ⟨exception, rfl, std, by simp [std]⟩

theorem run_loadKey :
    ∃ after, (loadKey environment).run host = .ok () after ∧ Configures host after := by
  simp only [loadKey, EStateM.run_bind, EStateM.run_get]
  split
  · cases environment.publicKey with
    | some key => exact ⟨_, rfl, configures_setConfig _ host⟩
    | none =>
        obtain ⟨after, ran, configured⟩ := run_print _ (host.setConfig _)
        exact ⟨after, ran, (configures_setConfig _ host).trans configured⟩
  · exact ⟨host, rfl, .refl host⟩

theorem run_tryLoadConfig :
    (environment.ReachesHook ∧
      ∃ after, (tryLoadConfig environment).run host = .ok true after ∧ Configures host after) ∨
    (¬ environment.ReachesHook ∧
      ((tryLoadConfig environment).run host = .ok false host ∨
        ∃ exception, (tryLoadConfig environment).run host =
          .error (.thrown exception) host)) := by
  rw [tryLoadConfig, run_guarded, loadConfig]
  cases found : environment.configExists with
  | error exception =>
      have stops : ¬ environment.ReachesHook := by
        rintro ⟨present, same, _⟩
        simp [found] at same
      cases std : exception.isStd with
      | true => exact .inr ⟨stops, .inl (by simp [std])⟩
      | false => exact .inr ⟨stops, .inr ⟨exception, by simp [std]⟩⟩
  | ok present =>
      cases present with
      | false =>
          obtain ⟨after, ran, configured⟩ := run_print (text "Config '" ++ configName ++
            text "' not present, defaults will be used.") host
          refine .inl ⟨⟨false, found, by simp⟩, after, ?_, configured⟩
          simp only [EStateM.run_bind, run_liftThrow_ok, Bool.false_eq_true, if_false, ran]
          rfl
      | true =>
          rcases run_parseConfig environment host with ⟨caught, middle, parsed, configured⟩ |
            ⟨exception, failed, std, threw⟩
          · obtain ⟨after, ran, configured'⟩ := run_loadKey environment middle
            refine .inl ⟨⟨true, found, fun _ => caught⟩, after, ?_, configured.trans configured'⟩
            simp [parsed, ran]
          · refine .inr ⟨?_, .inr ⟨exception, by simp [threw, std]⟩⟩
            rintro ⟨present, same, caught⟩
            rw [found] at same
            cases same
            simp [caught rfl exception failed] at std

theorem run_startServer :
    (∃ exception after, environment.constructServer = .error exception ∧
      (startServer environment).run host = .error (.thrown exception) after ∧
      Configures host after) ∨
    (environment.constructServer = .ok () ∧ ∃ server after, server.stopped = false ∧
      Configures { host with server := some server } after ∧
      ((startServer environment).run host = .ok () after ∨
        ∃ exception, (startServer environment).run host = .error (.thrown exception) after)) := by
  obtain ⟨first, announced, configured⟩ := run_print
    (if host.extension.config.websockets then text "Will use web socket server"
      else text "Will use TCP server") host
  cases built : environment.constructServer with
  | error exception =>
      refine .inl ⟨exception, first, rfl, ?_, configured⟩
      simp [startServer, announced, built]
  | ok _ =>
      obtain ⟨config, lines, rfl⟩ := configured
      cases started : environment.startServer with
      | error exception =>
          refine .inr ⟨rfl, {}, _, rfl, ⟨config, lines, rfl⟩, .inr ⟨exception, ?_⟩⟩
          simp [startServer, announced, built, started]
      | ok _ =>
          obtain ⟨after, announced', configured⟩ := run_announce host.extension.config
            { host with
              extension := { host.extension with config, printed := lines }
              server := some { started := true } }
          obtain ⟨config', lines', rfl⟩ := configured
          refine .inr ⟨rfl, { started := true }, _, rfl, ⟨config', lines', rfl⟩, .inl ?_⟩
          simp [startServer, announced, built, started, announced']

inductive Loaded : EStateM.Result (Fault Exception HostDefect) Host Bool → Prop
  | refused (result : EStateM.Result (Fault Exception HostDefect) Host Bool) :
      (∀ defect after, result ≠ .error (.undefined defect) after) →
      ¬ environment.ReachesHook → Configures host (resultState result) → Loaded result
  | hookOnly (exception : Exception) (after : Host) : environment.ReachesHook →
      environment.constructServer = .error exception →
      Configures { host with hooked := true } after → Loaded (.error (.thrown exception) after)
  | served (result : EStateM.Result (Fault Exception HostDefect) Host Bool)
      (server : HostServer) : (∀ defect after, result ≠ .error (.undefined defect) after) →
      environment.ReachesHook → environment.constructServer = .ok () → server.stopped = false →
      Configures { host with hooked := true, server := some server } (resultState result) →
      Loaded result

theorem run_sdkOnLoad : Loaded environment host ((sdkOnLoad environment).run host) := by
  rcases run_tryLoadConfig environment host with ⟨reaches, middle, ran, configured⟩ |
    ⟨stops, ran | ⟨exception, ran⟩⟩
  · obtain ⟨config, lines, rfl⟩ := configured
    simp only [sdkOnLoad, EStateM.run_bind, ran, if_true, EStateM.run_modify]
    rcases run_startServer environment { host with
        extension := { host.extension with config, printed := lines }
        hooked := true } with ⟨exception, after, failed, threw, configured⟩ |
      ⟨built, server, after, fresh, configured, started⟩
    · rw [threw]
      obtain ⟨config', lines', rfl⟩ := configured
      exact .hookOnly exception _ reaches failed ⟨config', lines', rfl⟩
    · obtain ⟨config', lines', rfl⟩ := configured
      rcases started with returned | ⟨exception, threw⟩
      · rw [returned]
        exact .served _ server (by simp) reaches built fresh ⟨config', lines', rfl⟩
      · rw [threw]
        exact .served _ server (by simp) reaches built fresh ⟨config', lines', rfl⟩
  · simp only [sdkOnLoad, EStateM.run_bind, ran]
    exact .refused _ (by simp) stops (.refl host)
  · simp only [sdkOnLoad, EStateM.run_bind, ran]
    exact .refused _ (by simp) stops (.refl host)

def unloaded : Host :=
  { host with
    extension := { host.extension with eventForwards := [] }
    hooked := false
    released := host.released ++ host.extension.eventForwards.map Prod.snd }

/-- The test of the pointer is the wrong way round: a server that is there is not stopped. -/
theorem run_sdkOnUnload :
    sdkOnUnload.run host =
      if host.server.isNone then .error (.undefined .nullServer) host.unloaded
      else .ok () host.unloaded := by
  cases server : host.server with
  | none => simp [sdkOnUnload, stopServer, unloaded, server]
  | some _ => simp [sdkOnUnload, unloaded, server]

end

theorem run_gameFrame_served (platform : Platform) (sourceMod : SourceMod) {host : Host}
    (served : host.server.isSome = true) :
    (gameFrame platform sourceMod).run host =
      match (onGameFrame platform sourceMod).run host.extension with
      | .ok _ extension => .ok () { host with extension }
      | .error (.thrown _) extension => .ok () { host with extension }
      | .error (.undefined defect) extension =>
          .error (.undefined (.game defect)) { host with extension } := by
  obtain ⟨server, present⟩ := Option.isSome_iff_exists.mp served
  exact if_neg (by simp [present])

theorem run_gameFrame (platform : Platform) (sourceMod : SourceMod) {host : Host}
    (served : host.server.isSome = true) :
    resultState ((gameFrame platform sourceMod).run host) =
        { host with
          extension := resultState ((onGameFrame platform sourceMod).run host.extension) } ∧
      ∀ after, (gameFrame platform sourceMod).run host ≠ .error (.undefined .nullServer) after := by
  rw [run_gameFrame_served platform sourceMod served]
  cases (onGameFrame platform sourceMod).run host.extension with
  | ok _ extension => exact ⟨rfl, by simp⟩
  | error fault extension => cases fault <;> exact ⟨rfl, by simp⟩

structure Released (host : Host) : Prop where
  once : ∀ forward, host.released.count forward =
    if forward < host.extension.forwards.length then 1 else 0
  cleared : host.extension.eventForwards = []
  unhooked : host.hooked = false
  stopped : ∀ server, host.server = some server → server.started = true → server.stopped = true

theorem released_unloaded {host : Host} (listed : ForwardsListed host.extension)
    (kept : host.released = []) (resting : ∀ server, host.server = some server →
      server.started = false) : Released host.unloaded := by
  refine ⟨fun forward => ?_, rfl, rfl, fun server present started => ?_⟩
  · have same : host.extension.eventForwards.map Prod.snd =
        List.range host.extension.forwards.length := listed
    simp only [unloaded, kept, List.nil_append, same]
    split
    · rename_i created
      exact List.count_eq_one_of_mem List.nodup_range (List.mem_range.mpr created)
    · rename_i absent
      exact List.count_eq_zero.mpr fun member => absent (List.mem_range.mp member)
  · simp [resting server present] at started

end Host

namespace ExtensionLife

/-- The hook never runs without a server, no method is called on a null one, and unloading
gives everything back. -/
structure Protocol (life : ExtensionLife) : Prop where
  hooked : life.host.hooked = true → life.host.server.isSome = true
  calls : life.crashed ≠ some .nullServer
  released : life.phase = .unloaded → life.host.Released

def Permitted (life : ExtensionLife) : Action → Prop
  | .load environment => environment.ReachesHook → environment.constructServer = .ok ()
  | .unload => ∃ server, life.host.server = some server ∧ server.started = false
  | _ => True

structure Orderly (life : ExtensionLife) : Prop where
  hooked : life.host.hooked = true → life.host.server.isSome = true
  calls : life.crashed ≠ some .nullServer
  fresh : life.phase = .initial → life.host.server = none ∧ life.host.hooked = false
  held : life.phase ≠ .unloaded → ForwardsListed life.host.extension ∧ life.host.released = [] ∧
    ∀ server, life.host.server = some server → server.stopped = false
  released : life.phase = .unloaded → life.host.Released

theorem Orderly.protocol {life : ExtensionLife} (orderly : Orderly life) : Protocol life :=
  ⟨orderly.hooked, orderly.calls, orderly.released⟩

theorem orderly_created : Orderly created :=
  ⟨by simp [created], by simp [created], by simp [created], fun _ => ⟨rfl, rfl, by simp [created]⟩,
    by simp [created]⟩

section
variable {platform : Platform} {sourceMod : SourceMod} {life next : ExtensionLife}

theorem after_host {α : Type} (life : ExtensionLife) (phase : LoadPhase) (call : Host.Call α) :
    (life.after phase call).host = resultState (call.run life.host) := rfl

theorem after_calm {α : Type} (life : ExtensionLife) (phase : LoadPhase) (call : Host.Call α)
    (defined : ∀ defect host, call.run life.host ≠ .error (.undefined defect) host) :
    (life.after phase call).crashed = none := by
  unfold after
  cases ran : call.run life.host with
  | ok value host => simp
  | error fault host =>
      cases fault with
      | thrown exception => simp
      | undefined defect => exact (defined defect host ran).elim

theorem orderly_configured {base : Host} (configured : base.Configures next.host)
    (loaded : next.phase = .loaded) (calm : next.crashed ≠ some .nullServer)
    (served : base.hooked = true → base.server.isSome = true)
    (listed : ForwardsListed base.extension) (kept : base.released = [])
    (resting : ∀ server, base.server = some server → server.stopped = false) :
    Orderly next := by
  obtain ⟨config, lines, same⟩ := configured
  refine ⟨?_, calm, by simp [loaded], fun _ => ?_, by simp [loaded]⟩
  · rw [same]
    exact served
  · rw [same]
    exact ⟨listed, kept, resting⟩

theorem orderly_load {environment : LoadEnvironment} (orderly : Orderly life)
    (initial : life.phase = .initial)
    (permitted : environment.ReachesHook → environment.constructServer = .ok ()) :
    Orderly (life.after .loaded (Host.sdkOnLoad environment)) := by
  obtain ⟨unserved, unhooked⟩ := orderly.fresh initial
  obtain ⟨listed, kept, _⟩ := orderly.held (by simp [initial])
  have outcome := Host.run_sdkOnLoad environment life.host
  have calm := after_calm life .loaded (Host.sdkOnLoad environment)
  have host := after_host life .loaded (Host.sdkOnLoad environment)
  generalize (Host.sdkOnLoad environment).run life.host = result at outcome calm host
  cases outcome with
  | refused _ defined stops configured =>
      rw [← host] at configured
      exact orderly_configured configured rfl (by simp [calm defined]) (by simp [unhooked]) listed
        kept (by simp [unserved])
  | hookOnly exception host reaches failed configured =>
      simp [permitted reaches] at failed
  | served _ server defined reaches built fresh configured =>
      rw [← host] at configured
      refine orderly_configured configured rfl (by simp [calm defined]) (by simp) listed kept ?_
      simp only [Option.some.injEq]
      rintro other rfl
      exact fresh

theorem orderly_frame (orderly : Orderly life) (loaded : life.phase = .loaded)
    (hooked : life.host.hooked = true) :
    Orderly (life.after .loaded (Host.gameFrame platform sourceMod)) := by
  obtain ⟨listed, kept, resting⟩ := orderly.held (by simp [loaded])
  have served := orderly.hooked hooked
  have extension := preserves_onGameFrame platform sourceMod life.host.extension listed
  obtain ⟨host, defined⟩ := Host.run_gameFrame platform sourceMod served
  refine ⟨?_, ?_, by simp [after], fun _ => ?_, by simp [after]⟩
  · rw [after_host, host]
    exact fun _ => served
  · unfold after
    split
    · rename_i defect unwound ran
      rintro ⟨rfl⟩
      exact defined unwound ran
    · simp
  · rw [after_host, host]
    exact ⟨extension, kept, resting⟩

theorem orderly_step {action : Action} (stepped : Step platform sourceMod life action next)
    (orderly : Orderly life) (permitted : life.Permitted action) : Orderly next := by
  cases stepped with
  | load environment initial calm => exact orderly_load orderly initial permitted
  | gameFrame loaded calm hooked => exact orderly_frame orderly loaded hooked
  | native plugin native loaded calm =>
      obtain ⟨listed, kept, resting⟩ := orderly.held (by simp [loaded])
      exact ⟨orderly.hooked, orderly.calls, by simp [loaded],
        fun _ => ⟨listed_native listed plugin native, kept, resting⟩, by simp [loaded]⟩
  | unload loaded calm =>
      obtain ⟨listed, kept, _⟩ := orderly.held (by simp [loaded])
      obtain ⟨server, present, resting⟩ := permitted
      have ran := Host.run_sdkOnUnload life.host
      simp only [present, Option.isNone_some, Bool.false_eq_true, if_false] at ran
      have host : (life.after .unloaded Host.sdkOnUnload).host = life.host.unloaded := by
        rw [after_host, ran]
        rfl
      have released : Host.Released life.host.unloaded := by
        refine Host.released_unloaded listed kept fun other same => ?_
        rw [present] at same
        cases same
        exact resting
      refine ⟨?_, ?_, by simp [after], by simp [after], fun _ => host ▸ released⟩
      · rw [host]
        simp [Host.unloaded]
      · rw [after_calm _ _ _ (by simp [ran])]
        simp

theorem not_protocol_step {action : Action} (stepped : Step platform sourceMod life action next)
    (orderly : Orderly life) (refused : ¬ life.Permitted action) : ¬ Protocol next := by
  intro protocol
  cases stepped with
  | load environment initial calm =>
      simp only [Permitted, Classical.not_imp] at refused
      obtain ⟨reaches, failed⟩ := refused
      have host := after_host life .loaded (Host.sdkOnLoad environment)
      have outcome := Host.run_sdkOnLoad environment life.host
      generalize (Host.sdkOnLoad environment).run life.host = result at outcome host
      cases outcome with
      | refused _ _ stops _ => exact stops reaches
      | served _ _ _ _ built _ _ => exact failed built
      | hookOnly exception after _ _ configured =>
          obtain ⟨config, lines, same⟩ := configured
          have served := protocol.hooked
          rw [host, same] at served
          simp [resultState, (orderly.fresh initial).1] at served
  | gameFrame loaded calm hooked => exact refused trivial
  | native plugin native loaded calm => exact refused trivial
  | unload loaded calm =>
      obtain ⟨_, _, resting⟩ := orderly.held (by simp [loaded])
      have ran := Host.run_sdkOnUnload life.host
      cases present : life.host.server with
      | none =>
          have crashed := protocol.calls
          simp [after, ran, present] at crashed
      | some server =>
          have released := protocol.released rfl
          have running := resting server present
          have kept : (life.after .unloaded Host.sdkOnUnload).host.server = some server := by
            simp [after_host, ran, present, resultState, Host.unloaded]
          cases started : server.started with
          | false => exact refused ⟨server, present, started⟩
          | true => simp [released.stopped server kept started] at running

theorem protocol_iff_permitted {path : List (ExtensionLife × Action)} {last : ExtensionLife}
    (trace : Trace (Step platform sourceMod) created path last) :
    ((∀ visited ∈ path, Protocol visited.1) ∧ Protocol last) ↔
      ∀ visited ∈ path, visited.1.Permitted visited.2 :=
  trace.good_iff_permitted orderly_created Orderly.protocol orderly_step not_protocol_step

end

def cleanEnvironment : LoadEnvironment where
  configExists := .ok false
  configParsed := .error .parseError
  publicKey := none
  constructServer := .ok ()
  startServer := .ok ()

def quietSourceMod : SourceMod := .simple fun _ => []

theorem load_created : Trace (Step .x86 quietSourceMod) created
    [(created, .load cleanEnvironment)]
    (created.after .loaded (Host.sdkOnLoad cleanEnvironment)) := by
  have opened : Trace (Step .x86 quietSourceMod) created [] created := .refl
  exact opened.snoc (.load cleanEnvironment rfl rfl)

theorem protocol_iff_permitted_portTaken : ∃ (path : List (ExtensionLife × Action))
    (last : ExtensionLife), path.length = 2 ∧ last.phase = .unloaded ∧
      (∀ visited ∈ path, Protocol visited.1) ∧ Protocol last := by
  have opened : Trace (Step .x86 quietSourceMod) created [] created := .refl
  have loaded := opened.snoc
    (.load { cleanEnvironment with startServer := .error .systemError } rfl rfl)
  have unloaded := loaded.snoc (.unload rfl rfl)
  refine ⟨_, _, rfl, rfl, (protocol_iff_permitted unloaded).mpr ?_⟩
  intro visited member
  simp only [List.cons_append, List.nil_append, List.mem_cons, List.not_mem_nil, or_false]
    at member
  rcases member with rfl | rfl
  · exact fun _ => rfl
  · exact ⟨{}, rfl, rfl⟩

theorem unload_leavesServer : ¬ ∀ platform sourceMod path last,
    Trace (Step platform sourceMod) created path last → Protocol last := by
  intro protocol
  have unloaded := load_created.snoc (.unload rfl rfl)
  exact absurd (((protocol _ _ _ _ unloaded).released rfl).stopped _ rfl rfl) (by decide)

end ExtensionLife

end SocketEvents
