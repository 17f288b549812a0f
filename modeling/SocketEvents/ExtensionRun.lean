import SocketEvents.EventArgsNatives

/-!
What each native does to the state of the extension, and what a plugin function made of such
calls can do.
-/

namespace SocketEvents

open Execution

namespace ListenerNative

def name : ListenerNative → CString
  | .addEventListener name _ => name
  | .removeEventListener name _ => name
  | .removeAllEventListeners name => name

def change (plugin : Plugin) : ListenerNative → Forward → Forward
  | .addEventListener _ function => .addFunction { plugin, function }
  | .removeEventListener _ function => .removeFunction { plugin, function }
  | .removeAllEventListeners _ => id

theorem run_eq (plugin : Plugin) (native : ListenerNative) (extension : Extension) :
    native.run plugin extension =
      (extension.getOrAddForward native.name).2.modifyForward
        (extension.getOrAddForward native.name).1 (native.change plugin) := by
  cases native with
  | addEventListener name function => rfl
  | removeEventListener name function => rfl
  | removeAllEventListeners name =>
      simp [run, Extension.removeAllEventListeners, ListenerNative.name, change,
        Extension.modifyForward, List.modify_id]

theorem run_frame (plugin : Plugin) (native : ListenerNative) (extension : Extension) :
    ∃ eventForwards forwards,
      native.run plugin extension = { extension with eventForwards, forwards } := by
  rw [run_eq]
  unfold Extension.getOrAddForward
  split
  · exact ⟨_, _, rfl⟩
  · exact ⟨_, _, rfl⟩

end ListenerNative

namespace Extension

structure ForwardsValid (extension : Extension) : Prop where
  bound : ∀ {name forward}, AssocMap.find name extension.eventForwards = some forward →
    forward < extension.forwards.length
  injective : ∀ {name other forward}, AssocMap.find name extension.eventForwards = some forward →
    AssocMap.find other extension.eventForwards = some forward → name = other

def forwardOf (name : CString) (extension : Extension) : Forward :=
  ((AssocMap.find name extension.eventForwards).bind (extension.forwards[·]?)).getD .created

section
variable {extension : Extension} {name : CString}

theorem forwardsValid_created (valid : extension.ForwardsValid)
    (absent : AssocMap.find name extension.eventForwards = none) :
    (extension.getOrAddForward name).2.ForwardsValid := by
  simp only [getOrAddForward, absent]
  constructor
  · intro other forward found
    simp only [AssocMap.find_insert] at found
    simp only [List.length_append, List.length_cons, List.length_nil]
    split at found
    · simp only [Option.some.injEq] at found
      exact found ▸ Nat.lt_succ_self _
    · exact Nat.lt_succ_of_lt (valid.bound found)
  · intro first second forward foundFirst foundSecond
    simp only [AssocMap.find_insert] at foundFirst foundSecond
    split at foundFirst
    · split at foundSecond
      · simp_all
      · simp only [Option.some.injEq] at foundFirst
        exact (Nat.lt_irrefl _ (foundFirst ▸ valid.bound foundSecond)).elim
    · split at foundSecond
      · simp only [Option.some.injEq] at foundSecond
        exact (Nat.lt_irrefl _ (foundSecond ▸ valid.bound foundFirst)).elim
      · exact valid.injective foundFirst foundSecond

theorem getOrAddForward_spec (valid : extension.ForwardsValid) (name : CString) :
    (extension.getOrAddForward name).2.ForwardsValid ∧
      (extension.getOrAddForward name).2.forwards[(extension.getOrAddForward name).1]? =
        some (extension.forwardOf name) ∧
      (∀ other, AssocMap.find other (extension.getOrAddForward name).2.eventForwards =
        if other = name then some (extension.getOrAddForward name).1
        else AssocMap.find other extension.eventForwards) ∧
      ∀ other, (extension.getOrAddForward name).2.forwardOf other = extension.forwardOf other := by
  cases found : AssocMap.find name extension.eventForwards with
  | some forward =>
      have bound := valid.bound found
      simp only [getOrAddForward, found]
      refine ⟨valid, ?_, ?_, fun _ => trivial⟩
      · simp [forwardOf, found, List.getElem?_eq_getElem bound]
      · intro other
        by_cases same : other = name
        · simp [same, found]
        · simp [same]
  | none =>
      refine ⟨forwardsValid_created valid found, ?_, ?_, ?_⟩
      · simp [getOrAddForward, found, forwardOf]
      · intro other
        simp only [getOrAddForward, found, AssocMap.find_insert]
      · intro other
        by_cases same : other = name
        · simp [getOrAddForward, found, forwardOf, same]
        · cases bound : AssocMap.find other extension.eventForwards with
          | none => simp [getOrAddForward, found, forwardOf, same, AssocMap.find_insert, bound]
          | some forward =>
              have inside := valid.bound bound
              simp [getOrAddForward, found, forwardOf, same, AssocMap.find_insert, bound,
                List.getElem?_append_left inside]

end

end Extension

namespace ListenerNative

section
variable {extension : Extension}

theorem forwardOf_run (valid : extension.ForwardsValid) (plugin : Plugin)
    (native : ListenerNative) (name : CString) :
    (native.run plugin extension).forwardOf name =
      if name = native.name then native.change plugin (extension.forwardOf name)
      else extension.forwardOf name := by
  obtain ⟨after, held, bindings, kept⟩ := Extension.getOrAddForward_spec valid native.name
  rw [run_eq]
  by_cases same : name = native.name
  · subst same
    simp [Extension.forwardOf, Extension.modifyForward, bindings, held]
  · rw [if_neg same, ← kept name]
    cases found : AssocMap.find name extension.eventForwards with
    | none => simp [Extension.forwardOf, Extension.modifyForward, bindings, same, found]
    | some forward =>
        have different : (extension.getOrAddForward native.name).1 ≠ forward := by
          intro clash
          have first : AssocMap.find name
              (extension.getOrAddForward native.name).2.eventForwards = some forward := by
            rw [bindings, if_neg same, found]
          have second : AssocMap.find native.name
              (extension.getOrAddForward native.name).2.eventForwards = some forward := by
            rw [bindings, if_pos rfl, clash]
          exact same (after.injective first second)
        simp [Extension.forwardOf, Extension.modifyForward, bindings, same, found,
          List.getElem?_modify, different]

theorem find_run (valid : extension.ForwardsValid) (plugin : Plugin) (native : ListenerNative)
    {name : CString} {forward : ForwardRef}
    (found : AssocMap.find name extension.eventForwards = some forward) :
    AssocMap.find name (native.run plugin extension).eventForwards = some forward := by
  rw [run_eq]
  obtain ⟨_, _, bindings, _⟩ := Extension.getOrAddForward_spec valid native.name
  simp only [Extension.modifyForward, bindings]
  split
  · rename_i same
    subst same
    simp [Extension.getOrAddForward, found]
  · exact found

theorem forwardsValid_run (valid : extension.ForwardsValid) (plugin : Plugin)
    (native : ListenerNative) : (native.run plugin extension).ForwardsValid := by
  rw [run_eq]
  obtain ⟨after, _, _, _⟩ := Extension.getOrAddForward_spec valid native.name
  constructor
  · intro name forward found
    simpa [Extension.modifyForward] using after.bound found
  · exact after.injective

end

end ListenerNative

def Extension.afterNatives (history : List (Plugin × ListenerNative)) (extension : Extension) :
    Extension :=
  history.foldl (fun state call => call.2.run call.1 state) extension

section
variable {platform : Platform} {extension : Extension} {handle : Handle} {args : ArgsRef}

theorem run_getEventArgsFromHandle
    (valid : AssocMap.find handle extension.handles = some args) :
    (getEventArgsFromHandle handle).run extension = .ok args extension := by
  simp [getEventArgsFromHandle, valid]

theorem run_getEventArgsFromHandle_invalid
    (invalid : AssocMap.find handle extension.handles = none) :
    (getEventArgsFromHandle handle).run extension =
      .error (.thrown .invalidHandle) extension := by
  simp [getEventArgsFromHandle, invalid]

def Extension.destroyed (objects : Heap EventArgs) (extension : Extension) : Extension :=
  { extension with store := { extension.store with objects } }

def Extension.closed (handle : Handle) (extension : Extension) : Extension :=
  { extension with handles := AssocMap.erase handle extension.handles }

theorem run_deleteArgs {objects : Heap EventArgs}
    (freed : extension.store.objects.free args = some objects) :
    (deleteArgs args).run extension = .ok () (extension.destroyed objects) := by
  simp [deleteArgs, freed, Extension.destroyed]

theorem run_deleteHandle {objects : Heap EventArgs}
    (valid : AssocMap.find handle extension.handles = some args)
    (freed : extension.store.objects.free args = some objects) :
    (deleteHandle handle).run extension =
      .ok () ((extension.closed handle).destroyed objects) := by
  simp only [deleteHandle, EStateM.run_bind, run_getEventArgsFromHandle valid]
  exact run_deleteArgs freed

theorem run_deleteHandle_invalid
    (invalid : AssocMap.find handle extension.handles = none) :
    (deleteHandle handle).run extension = .error (.thrown .invalidHandle) extension := by
  simp [deleteHandle, run_getEventArgsFromHandle_invalid invalid]

def Extension.afterRead (record : ReadRecord) (extension : Extension) : Extension :=
  { extension with reads := extension.reads ++ [record] }

theorem run_onEventArgs {α : Type} {call : Lookup α} {tree : EventArgs} {value : α}
    (stored : extension.store.objects.load args = some tree)
    (returned : call.run tree = .ok value tree) :
    (onEventArgs args call).run extension = .ok value extension := by
  have kept : extension.store.objects.store args tree = extension.store.objects :=
    Heap.store_of_load stored
  simp [onEventArgs, stored, returned, kept]

@[simp] theorem run_keyString (key : CString) :
    (keyString (some key)).run extension = .ok key extension := rfl

@[simp] theorem run_keyString_null :
    (keyString none).run extension = .error (.undefined .nullString) extension := rfl

theorem run_readNative {listener : Listener} {native : EventArgsNative} {key : CString}
    {tree : EventArgs} {result : Cell × CString}
    (valid : AssocMap.find handle extension.handles = some args)
    (stored : extension.store.objects.load args = some tree)
    (returned : (native.run platform key).run tree = .ok result tree) :
    (readNative platform listener handle native (some key)).run extension =
      .ok () (extension.afterRead ⟨listener, handle, native, some key, some result⟩) := by
  simp only [readNative, EStateM.run_bind, run_guarded, run_getEventArgsFromHandle valid,
    run_keyString, run_onEventArgs stored returned]
  rfl

theorem run_readNative_crash {listener : Listener} {native : EventArgsNative} {key : CString}
    {tree : EventArgs} {defect : Defect}
    (valid : AssocMap.find handle extension.handles = some args)
    (stored : extension.store.objects.load args = some tree)
    (crashed : (native.run platform key).run tree = .error (.undefined defect) tree) :
    (readNative platform listener handle native (some key)).run extension =
      .error (.undefined defect) extension := by
  simp only [readNative, EStateM.run_bind, run_guarded, run_getEventArgsFromHandle valid,
    run_keyString]
  simp [onEventArgs, stored, crashed]

theorem run_readNative_null (platform : Platform) (listener : Listener) (native : EventArgsNative)
    (valid : AssocMap.find handle extension.handles = some args) :
    (readNative platform listener handle native none).run extension =
      .error (.undefined .nullString) extension := by
  simp only [readNative, EStateM.run_bind, run_guarded, run_getEventArgsFromHandle valid,
    run_keyString_null]

theorem run_readNative_invalid (platform : Platform) (listener : Listener)
    (native : EventArgsNative) (key : Option CString)
    (invalid : AssocMap.find handle extension.handles = none) :
    (readNative platform listener handle native key).run extension =
      .error (.thrown .invalidHandle)
        (extension.afterRead ⟨listener, handle, native, key, none⟩) := by
  simp only [readNative, EStateM.run_bind, run_guarded,
    run_getEventArgsFromHandle_invalid invalid, if_true]
  rfl

end

namespace Extension

/-- The arguments of the queued messages, of the message in hand, and of the open handles. -/
def owners (inHand : Option ArgsRef) (extension : Extension) : List ArgsRef :=
  extension.store.eventQueue.contents.filterMap EventMessage.args ++ inHand.toList ++
    extension.handles.map Prod.snd

/-- Every allocated object has exactly one owner. -/
structure Sound (inHand : Option ArgsRef) (extension : Extension) : Prop where
  forwards : extension.ForwardsValid
  complete : ∀ message ∈ extension.store.eventQueue.contents, message.args.isSome = true
  distinct : (extension.owners inHand).Nodup
  owned : ∀ args, extension.store.objects.Live args ↔ args ∈ extension.owners inHand
  handlesDistinct : (extension.handles.map Prod.fst).Nodup
  regular : ∀ args tree, extension.store.objects.load args = some tree → tree.Regular

theorem Sound.congr {inHand : Option ArgsRef} {extension other : Extension}
    (sound : extension.Sound inHand) (eventForwards : other.eventForwards = extension.eventForwards)
    (forwards : other.forwards = extension.forwards) (store : other.store = extension.store)
    (handles : other.handles = extension.handles) : other.Sound inHand := by
  have owners : other.owners inHand = extension.owners inHand := by
    simp only [Extension.owners, store, handles]
  constructor
  · constructor
    · rw [eventForwards, forwards]
      exact sound.forwards.bound
    · rw [eventForwards]
      exact sound.forwards.injective
  · rw [store]
    exact sound.complete
  · rw [owners]
    exact sound.distinct
  · rw [store, owners]
    exact sound.owned
  · rw [handles]
    exact sound.handlesDistinct
  · rw [store]
    exact sound.regular

theorem Sound.listeners {inHand : Option ArgsRef} {extension : Extension}
    (sound : extension.Sound inHand) (plugin : Plugin) (native : ListenerNative) :
    (native.run plugin extension).Sound inHand := by
  have forwards := native.forwardsValid_run sound.forwards plugin
  obtain ⟨_, _, same⟩ := native.run_frame plugin extension
  rw [same] at forwards ⊢
  exact ⟨forwards, sound.complete, sound.distinct, sound.owned, sound.handlesDistinct,
    sound.regular⟩

theorem Sound.live_of_handle {inHand : Option ArgsRef} {extension : Extension} {handle : Handle}
    {args : ArgsRef} (sound : extension.Sound inHand)
    (valid : AssocMap.find handle extension.handles = some args) :
    extension.store.objects.Live args := by
  rw [sound.owned]
  exact List.mem_append_right _ (List.mem_map_of_mem (f := Prod.snd) (AssocMap.mem_of_find valid))

section
variable {inHand : Option ArgsRef} {extension : Extension} {objects : Heap EventArgs}
  {handle : Handle} {args : ArgsRef}

theorem owners_closed_sublist :
    ((extension.closed handle).owners inHand).Sublist (extension.owners inHand) := by
  refine List.Sublist.append_left ?_ _
  simp only [closed, AssocMap.erase_eq_filter]
  exact List.filter_sublist.map Prod.snd

theorem Sound.mem_owners_closed (sound : extension.Sound inHand)
    (valid : AssocMap.find handle extension.handles = some args) (other : ArgsRef) :
    other ∈ (extension.closed handle).owners inHand ↔
      other ∈ extension.owners inHand ∧ other ≠ args := by
  have member := AssocMap.mem_of_find valid
  have distinct := List.nodup_append.mp sound.distinct
  have held : args ∈ extension.handles.map Prod.snd := List.mem_map_of_mem (f := Prod.snd) member
  constructor
  · intro owner
    refine ⟨owners_closed_sublist.subset owner, ?_⟩
    intro same
    subst same
    rcases List.mem_append.mp owner with before | after
    · exact distinct.2.2 other before other held rfl
    · simp only [closed, AssocMap.erase_eq_filter, List.mem_map, List.mem_filter] at after
      obtain ⟨entry, ⟨inside, different⟩, value⟩ := after
      have same := List.inj_on_of_nodup_map distinct.2.1 inside member value
      simp [same] at different
  · rintro ⟨owner, different⟩
    rcases List.mem_append.mp owner with before | after
    · exact List.mem_append_left _ before
    · obtain ⟨entry, inside, value⟩ := List.mem_map.mp after
      refine List.mem_append_right _ (List.mem_map.mpr ⟨entry, ?_, value⟩)
      simp only [closed, AssocMap.erase_eq_filter, List.mem_filter]
      refine ⟨inside, decide_eq_true ?_⟩
      intro same
      have found := AssocMap.find_of_mem sound.handlesDistinct inside
      rw [same, valid, value] at found
      exact different (Option.some.inj found).symm

theorem Sound.deleted (sound : extension.Sound inHand)
    (valid : AssocMap.find handle extension.handles = some args)
    (freed : extension.store.objects.free args = some objects) :
    ((extension.closed handle).destroyed objects).Sound inHand := by
  obtain ⟨_, _, _, loads⟩ := Heap.free_spec freed
  refine ⟨⟨sound.forwards.bound, sound.forwards.injective⟩, sound.complete,
    sound.distinct.sublist owners_closed_sublist, ?_, ?_, ?_⟩
  · intro other
    exact (Heap.live_free freed).trans (((sound.owned other).and Iff.rfl).trans
      (sound.mem_owners_closed valid other).symm)
  · refine sound.handlesDistinct.sublist ?_
    simp only [destroyed, closed, AssocMap.erase_eq_filter]
    exact List.filter_sublist.map Prod.fst
  · intro other tree found
    have loaded := loads other
    rw [show objects.load other = some tree from found] at loaded
    split at loaded
    · simp at loaded
    · exact sound.regular other tree loaded.symm

end

end Extension

inductive CallEffect (listener : Listener) (handle : Handle) (extension : Extension) :
    Extension → Prop
  | read (native : EventArgsNative) (key : Option CString)
      (result : Option (Cell × CString)) :
      CallEffect listener handle extension
        (extension.afterRead ⟨listener, handle, native, key, result⟩)
  | deleted (args : ArgsRef) (objects : Heap EventArgs) :
      AssocMap.find handle extension.handles = some args →
      extension.store.objects.free args = some objects →
      CallEffect listener handle extension ((extension.closed handle).destroyed objects)
  | failed : CallEffect listener handle extension extension
  | listeners (native : ListenerNative) :
      CallEffect listener handle extension (native.run listener.plugin extension)

/-- What a plugin function may change: forwards, its own handle, and the history of reads. -/
structure Serves (handle : Handle) (before after : Extension) : Prop where
  config : after.config = before.config
  eventQueue : after.store.eventQueue = before.store.eventQueue
  handlesRequested : after.handlesRequested = before.handlesRequested
  outcomes : after.outcomes = before.outcomes
  printed : after.printed = before.printed
  calls : after.calls = before.calls
  bindings : ∀ {name forward}, AssocMap.find name before.eventForwards = some forward →
    AssocMap.find name after.eventForwards = some forward
  others : ∀ other, other ≠ handle →
    AssocMap.find other after.handles = AssocMap.find other before.handles
  status : (AssocMap.find handle after.handles = AssocMap.find handle before.handles ∧
      after.store.objects.freed = before.store.objects.freed) ∨
    ∃ args, AssocMap.find handle before.handles = some args ∧
      AssocMap.find handle after.handles = none ∧
      after.store.objects.freed = before.store.objects.freed ++ [args]

section
variable {listener : Listener} {handle : Handle} {before middle after : Extension}
  {inHand : Option ArgsRef}

theorem Serves.refl (handle : Handle) (extension : Extension) :
    Serves handle extension extension :=
  ⟨rfl, rfl, rfl, rfl, rfl, rfl, id, fun _ _ => rfl, .inl ⟨rfl, rfl⟩⟩

theorem Serves.trans (first : Serves handle before middle) (second : Serves handle middle after) :
    Serves handle before after where
  config := second.config.trans first.config
  eventQueue := second.eventQueue.trans first.eventQueue
  handlesRequested := second.handlesRequested.trans first.handlesRequested
  outcomes := second.outcomes.trans first.outcomes
  printed := second.printed.trans first.printed
  calls := second.calls.trans first.calls
  bindings := fun found => second.bindings (first.bindings found)
  others := fun other different =>
    (second.others other different).trans (first.others other different)
  status := by
    rcases first.status with ⟨kept, freed⟩ | ⟨args, valid, invalid, freed⟩
    · rcases second.status with ⟨kept', freed'⟩ | ⟨args, valid, invalid, freed'⟩
      · exact .inl ⟨kept'.trans kept, freed'.trans freed⟩
      · exact .inr ⟨args, kept ▸ valid, invalid, freed ▸ freed'⟩
    · rcases second.status with ⟨kept', freed'⟩ | ⟨other, valid', _, _⟩
      · exact .inr ⟨args, valid, kept'.trans invalid, freed'.trans freed⟩
      · simp [invalid] at valid'

theorem CallEffect.sound (effect : CallEffect listener handle before after)
    (sound : before.Sound inHand) : after.Sound inHand := by
  cases effect with
  | read native key result => exact sound.congr rfl rfl rfl rfl
  | deleted args objects valid freed => exact sound.deleted valid freed
  | failed => exact sound
  | listeners native => exact sound.listeners listener.plugin native

theorem CallEffect.serves (effect : CallEffect listener handle before after)
    (sound : before.Sound inHand) : Serves handle before after := by
  cases effect with
  | read native key result =>
      exact ⟨rfl, rfl, rfl, rfl, rfl, rfl, id, fun _ _ => rfl, .inl ⟨rfl, rfl⟩⟩
  | deleted args objects valid freed =>
      obtain ⟨_, added, _, _⟩ := Heap.free_spec freed
      refine ⟨rfl, rfl, rfl, rfl, rfl, rfl, id, ?_, .inr ⟨args, valid, ?_, added⟩⟩
      · intro other different
        simp [Extension.destroyed, Extension.closed, AssocMap.find_erase, different]
      · simp [Extension.destroyed, Extension.closed, AssocMap.find_erase]
  | failed => exact Serves.refl handle _
  | listeners native =>
      have bindings : ∀ {name forward}, AssocMap.find name before.eventForwards = some forward →
          AssocMap.find name (native.run listener.plugin before).eventForwards = some forward :=
        fun found => native.find_run sound.forwards listener.plugin found
      obtain ⟨_, _, same⟩ := native.run_frame listener.plugin before
      rw [same] at bindings ⊢
      exact ⟨rfl, rfl, rfl, rfl, rfl, rfl, bindings, fun _ _ => rfl, .inl ⟨rfl, rfl⟩⟩

end

section
variable {platform : Platform} {sourceMod : SourceMod} {handle : Handle} {listener : Listener}
  {extension : Extension} {inHand : Option ArgsRef}

theorem runCall_cases (platform : Platform) (listener : Listener) (handle : Handle)
    (call : PluginCall) (sound : extension.Sound inHand) :
    (∃ after, (runCall platform listener handle call).run extension = .ok () after ∧
      CallEffect listener handle extension after ∧
      (call = .deleteHandle → AssocMap.find handle after.handles = none)) ∨
    (∃ after, (runCall platform listener handle call).run extension =
        .error (.thrown .invalidHandle) after ∧
      CallEffect listener handle extension after ∧
      AssocMap.find handle after.handles = none) ∨
    ∃ defect after, (runCall platform listener handle call).run extension =
        .error (.undefined defect) after ∧
      ∃ native key, call = .read native key ∧ (key = none ∨ native.getsValue = false) := by
  cases call with
  | read native key =>
      cases valid : AssocMap.find handle extension.handles with
      | none =>
          exact .inr (.inl ⟨_, run_readNative_invalid platform listener native key valid,
            .read native key none, valid⟩)
      | some args =>
          obtain ⟨tree, stored⟩ := Heap.live_iff_load.mp (sound.live_of_handle valid)
          cases key with
          | none =>
              exact .inr (.inr ⟨_, _, run_readNative_null platform listener native valid, native,
                none, rfl, .inl rfl⟩)
          | some key =>
              rcases native.readsIf platform (sound.regular args tree stored) key with
                ⟨_, result, returned⟩ | ⟨crashes, defect, crashed⟩
              · exact .inl ⟨_, run_readNative valid stored returned,
                  .read native (some key) (some result), by simp⟩
              · refine .inr (.inr ⟨defect, _, run_readNative_crash valid stored crashed, native,
                  some key, rfl, .inr ?_⟩)
                simpa using fun gets => crashes (.inl gets)
  | deleteHandle =>
      cases valid : AssocMap.find handle extension.handles with
      | none =>
          exact .inr (.inl ⟨_, run_deleteHandle_invalid valid, .failed, valid⟩)
      | some args =>
          obtain ⟨objects, freed⟩ := Heap.free_isSome (sound.live_of_handle valid)
          refine .inl ⟨_, run_deleteHandle valid freed, .deleted args objects valid freed, ?_⟩
          simp [Extension.destroyed, Extension.closed, AssocMap.find_erase]
  | listeners native => exact .inl ⟨_, rfl, .listeners native, by simp⟩

/-- Some native is called without a key, or calls the walker that can crash. -/
def Walks (calls : List PluginCall) : Prop :=
  ∃ native key, .read native key ∈ calls ∧ (key = none ∨ native.getsValue = false)

theorem Serves.invalid {before after : Extension} (serves : Serves handle before after)
    (invalid : AssocMap.find handle before.handles = none) :
    AssocMap.find handle after.handles = none := by
  rcases serves.status with ⟨kept, _⟩ | ⟨args, valid, _, _⟩
  · exact kept.trans invalid
  · simp [invalid] at valid

theorem run_calls (platform : Platform) (listener : Listener) (handle : Handle)
    (calls : List PluginCall) (sound : extension.Sound inHand) :
    Leaves (fun after => after.Sound inHand ∧ Serves handle extension after ∧
        (.deleteHandle ∈ calls → AssocMap.find handle after.handles = none)) (Walks calls)
      ((calls.forM (runCall platform listener handle)).run extension) := by
  induction calls generalizing extension with
  | nil => exact ⟨sound, Serves.refl handle extension, by simp⟩
  | cons call rest ih =>
      simp only [List.forM, EStateM.run_bind]
      rcases runCall_cases platform listener handle call sound with ⟨next, ran, effect, deletes⟩ |
        ⟨next, ran, effect, invalid⟩ | ⟨defect, next, ran, native, key, same, walks⟩
      · rw [ran]
        have serves := effect.serves sound
        refine (ih (effect.sound sound)).imp ?_ ?_
        · rintro after ⟨soundAfter, later, invalid⟩
          refine ⟨soundAfter, serves.trans later, ?_⟩
          intro member
          rcases List.mem_cons.mp member with same | inside
          · exact later.invalid (deletes same.symm)
          · exact invalid inside
        · rintro ⟨native, key, member, walks⟩
          exact ⟨native, key, List.mem_cons_of_mem _ member, walks⟩
      · rw [ran]
        exact ⟨effect.sound sound, effect.serves sound, fun _ => invalid⟩
      · rw [ran]
        exact ⟨native, key, by simp [same], walks⟩

def Extension.calling (handle : Handle) (functions : List Listener) (extension : Extension) :
    Extension :=
  { extension with calls := extension.calls ++ functions.map (handle, ·) }

theorem Extension.Sound.calling (sound : extension.Sound inHand) (handle : Handle)
    (functions : List Listener) : (extension.calling handle functions).Sound inHand :=
  sound.congr rfl rfl rfl rfl

theorem Serves.calling {before after : Extension} (serves : Serves handle before after)
    (functions : List Listener) :
    Serves handle (before.calling handle functions) (after.calling handle functions) :=
  { serves with calls := congrArg (· ++ functions.map (handle, ·)) serves.calls }

theorem runCallback_leaves (platform : Platform) (sourceMod : SourceMod) (handle : Handle)
    (listener : Listener) (sound : extension.Sound inHand) :
    (∃ after, (runCallback platform sourceMod handle listener).run extension = .ok () after ∧
      after.Sound inHand ∧ Serves handle (extension.calling handle [listener]) after ∧
      (.deleteHandle ∈ sourceMod.callback listener →
        AssocMap.find handle after.handles = none)) ∨
    (Walks (sourceMod.callback listener) ∧
      ∃ defect after, (runCallback platform sourceMod handle listener).run extension =
        .error (.undefined defect) after) := by
  have ran := run_calls platform listener handle (sourceMod.callback listener)
    (sound.calling handle [listener])
  have unfolded : (runCallback platform sourceMod handle listener).run extension =
      (guarded (fun _ => true)
        ((sourceMod.callback listener).forM (runCall platform listener handle))
        (return ())).run (extension.calling handle [listener]) := rfl
  rw [unfolded, run_guarded]
  revert ran
  cases ((sourceMod.callback listener).forM (runCall platform listener handle)).run
    (extension.calling handle [listener]) with
  | ok _ after => exact fun leaves => .inl ⟨after, rfl, leaves⟩
  | error fault after =>
      cases fault with
      | thrown _ => exact fun leaves => .inl ⟨after, rfl, leaves⟩
      | undefined defect => exact fun walks => .inr ⟨walks, defect, after, rfl⟩

theorem run_functions (platform : Platform) (sourceMod : SourceMod) (handle : Handle)
    (functions : List Listener) (sound : extension.Sound inHand) :
    (∃ after, (functions.forM (runCallback platform sourceMod handle)).run extension =
        .ok () after ∧
      after.Sound inHand ∧ Serves handle (extension.calling handle functions) after ∧
      (functions = [] → after = extension) ∧
      ∀ listener ∈ functions, .deleteHandle ∈ sourceMod.callback listener →
        AssocMap.find handle after.handles = none) ∨
    ((∃ listener ∈ functions, Walks (sourceMod.callback listener)) ∧
      ∃ defect after, (functions.forM (runCallback platform sourceMod handle)).run extension =
        .error (.undefined defect) after) := by
  -- each function starts in the state the one before it left
  induction functions generalizing extension with
  | nil =>
      refine .inl ⟨extension, rfl, sound, ?_, fun _ => rfl, by simp⟩
      have same : extension.calling handle [] = extension := by simp [Extension.calling]
      rw [same]
      exact Serves.refl handle extension
  | cons listener rest ih =>
      simp only [List.forM, EStateM.run_bind]
      rcases runCallback_leaves platform sourceMod handle listener sound with
        ⟨next, ran, soundNext, first, deletes⟩ | ⟨walks, defect, next, ran⟩
      · rw [ran]
        rcases ih soundNext with ⟨after, ranRest, soundAfter, later, _, deletesRest⟩ |
          ⟨⟨other, member, walks⟩, defect, after, ranRest⟩
        · refine .inl ⟨after, ranRest, soundAfter, ?_, by simp, ?_⟩
          · have joined := (first.calling rest).trans later
            have same : (extension.calling handle [listener]).calling handle rest =
                extension.calling handle (listener :: rest) := by simp [Extension.calling]
            rwa [same] at joined
          · intro other member deletesOther
            rcases List.mem_cons.mp member with same | inside
            · exact later.invalid (deletes (same ▸ deletesOther))
            · exact deletesRest other inside deletesOther
        · exact .inr ⟨⟨other, List.mem_cons_of_mem _ member, walks⟩, defect, after, ranRest⟩
      · exact .inr ⟨⟨listener, by simp, walks⟩, defect, next, by rw [ran]⟩

end

end SocketEvents
