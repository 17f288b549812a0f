import SocketEvents.EventLoop

/-!
What the dispatches of a run leave behind. The outcomes, the lines printed and the calls of the
plugins' functions tell one story.
-/

namespace SocketEvents

open Execution Transition

inductive JournalEntry
  | executed (message : EventMessage) (forward : ForwardRef) (handle : Handle)
      (called : List Listener) (result : Cell)
  | refused (message : EventMessage) (error : Nat)
  | discarded (message : EventMessage)

namespace JournalEntry

def message : JournalEntry → EventMessage
  | .executed message _ _ _ _ => message
  | .refused message _ => message
  | .discarded message => message

def outcome : JournalEntry → Outcome
  | .executed _ forward _ _ _ => .executed forward
  | .refused _ error => .handleError error
  | .discarded _ => .discarded

def lines : JournalEntry → List CString
  | .executed message _ _ _ result =>
      if result = plHandled then [printed (sentText message.name)] else []
  | .refused _ error => [printed (text "ERROR: " ++ handleErrorText error)]
  | .discarded message => [printed (text "ERROR: " ++ noSubscribersText message.name)]

def calls : JournalEntry → List (Handle × Listener)
  | .executed _ _ handle called _ => called.map (handle, ·)
  | _ => []

end JournalEntry

structure Journal (entries : List JournalEntry) (extension : Extension) : Prop where
  outcomes : extension.outcomes = entries.map fun entry => (entry.message, entry.outcome)
  printed : extension.printed = entries.flatMap JournalEntry.lines
  calls : extension.calls = entries.flatMap JournalEntry.calls

/-- The new handle leads to the arguments, unless a function deleted it and so destroyed them. -/
structure HandsOver (handle : Handle) (args : ArgsRef) (before after : Extension) : Prop where
  fresh : AssocMap.find handle before.handles = none
  ends : (AssocMap.find handle after.handles = some args ∧
      after.store.objects.freed = before.store.objects.freed) ∨
    (AssocMap.find handle after.handles = none ∧
      after.store.objects.freed = before.store.objects.freed ++ [args])

structure Destroys (args : ArgsRef) (before after : Extension) : Prop where
  calls : after.calls = before.calls
  handles : after.handles = before.handles
  freed : after.store.objects.freed = before.store.objects.freed ++ [args]

/-- The entry is what `OnGameFrame` did with this message between the two states. -/
inductive JournalEntry.Records (sourceMod : SourceMod) (args : ArgsRef)
    (before after : Extension) : JournalEntry → Prop
  | executed (message : EventMessage) (forward : ForwardRef) :
      AssocMap.find message.name before.eventForwards = some forward →
      sourceMod.nextError before = 0 →
      after.calls = before.calls ++
        (sourceMod.callOrder (before.forwardOf message.name).functions).map
          (sourceMod.nextHandle before, ·) →
      HandsOver (sourceMod.nextHandle before) args before after →
      Records sourceMod args before after
        (.executed message forward (sourceMod.nextHandle before)
          (sourceMod.callOrder (before.forwardOf message.name).functions)
          (sourceMod.executeResult (before.handlesRequested + 1)))
  | refused (message : EventMessage) :
      (AssocMap.find message.name before.eventForwards).isSome = true →
      sourceMod.nextError before ≠ 0 → Destroys args before after →
      Records sourceMod args before after (.refused message (sourceMod.nextError before))
  | discarded (message : EventMessage) :
      AssocMap.find message.name before.eventForwards = none → Destroys args before after →
      Records sourceMod args before after (.discarded message)

section
variable {platform : Platform} {sourceMod : SourceMod} {config : Config}
  {entries : List JournalEntry} {extension after : Extension} {message : EventMessage}
  {args : ArgsRef}

theorem Journal.add {entry : JournalEntry} (journal : Journal entries extension)
    (outcomes : after.outcomes = extension.outcomes ++ [(entry.message, entry.outcome)])
    (printed : after.printed = extension.printed ++ entry.lines)
    (calls : after.calls = extension.calls ++ entry.calls) :
    Journal (entries ++ [entry]) after where
  outcomes := by simp [outcomes, journal.outcomes]
  printed := by simp [printed, journal.printed]
  calls := by simp [calls, journal.calls]

theorem Journal.same (journal : Journal entries extension)
    (outcomes : after.outcomes = extension.outcomes)
    (printed : after.printed = extension.printed) (calls : after.calls = extension.calls) :
    Journal entries after :=
  ⟨outcomes.trans journal.outcomes, printed.trans journal.printed, calls.trans journal.calls⟩

theorem Destroys.of_free {objects : Heap EventArgs}
    (freed : extension.store.objects.free args = some objects)
    (calls : after.calls = extension.calls) (handles : after.handles = extension.handles) :
    Destroys args extension (after.destroyed objects) := by
  obtain ⟨_, added, _, _⟩ := Heap.free_spec freed
  exact ⟨calls, handles, added⟩

theorem Serves.handsOver {handle : Handle} {forward : ForwardRef} {functions : List Listener}
    (fresh : AssocMap.find handle extension.handles = none)
    (serves : Serves handle
      ((extension.opened message forward handle args).calling handle functions) after) :
    HandsOver handle args extension after := by
  have opened : AssocMap.find handle
      ((extension.opened message forward handle args).calling handle functions).handles =
        some args := Dispatched.find_opened fresh message forward args
  refine ⟨fresh, serves.status.imp ?_ ?_⟩
  · rintro ⟨kept, freed⟩
    exact ⟨kept.trans opened, freed⟩
  · rintro ⟨owned, valid, invalid, freed⟩
    obtain rfl := Option.some.inj (valid.symm.trans opened)
    exact ⟨invalid, freed⟩

theorem Dispatched.journal (dispatched : Dispatched sourceMod message args extension after)
    (journal : Journal entries extension) :
    ∃ entry : JournalEntry, entry.message = message ∧
      entry.Records sourceMod args extension after ∧ Journal (entries ++ [entry]) after := by
  cases dispatched with
  | executed forward served found created serves _ _ =>
      have handsOver := serves.handsOver (sourceMod.nextHandle_fresh extension)
      refine ⟨_, rfl, .executed message forward found created ?_ ?_, journal.add ?_ ?_ ?_⟩
      · split <;> exact serves.calls
      · split <;> exact ⟨handsOver.fresh, handsOver.ends⟩
      · split <;> exact serves.outcomes
      · simp only [JournalEntry.lines]
        split
        · exact congrArg (· ++ _) serves.printed
        · exact serves.printed.trans (List.append_nil _).symm
      · split <;> exact serves.calls
  | handleError forward objects found failed freed =>
      exact ⟨_, rfl, .refused message (by simp [found]) failed (.of_free freed rfl rfl),
        journal.add rfl rfl (List.append_nil _).symm⟩
  | discarded objects found freed =>
      exact ⟨_, rfl, .discarded message found (.of_free freed rfl rfl),
        journal.add rfl rfl (List.append_nil _).symm⟩

variable {system next : System} {path : List System}

def System.Finishes (sourceMod : SourceMod) (before after : System) (entry : JournalEntry) : Prop :=
  before.phase.inFlight = [entry.message] ∧ ∃ args, entry.message.args = some args ∧
    entry.Records sourceMod args before.extension after.extension

theorem Step.journal (stepped : Step platform sourceMod system next)
    (consistent : system.Consistent platform config)
    (journal : Journal entries system.extension) :
    Journal entries next.extension ∨ ∃ entry, system.Finishes sourceMod next entry ∧
      Journal (entries ++ [entry]) next.extension := by
  cases stepped with
  | arrive serverConfig json _ => exact .inl (journal.same rfl rfl rfl)
  | native plugin native _ =>
      obtain ⟨_, _, same⟩ := native.run_frame plugin system.extension
      rw [same]
      exact .inl (journal.same rfl rfl rfl)
  | enterFrame _ => exact .inl journal
  | dequeue _ _ _ => exact .inl (journal.same rfl rfl rfl)
  | foundEmpty _ _ _ => exact .inl (journal.same rfl rfl rfl)
  | reachedLimit _ _ => exact .inl journal
  | missing dispatching absent _ =>
      -- no message without arguments is ever dequeued
      have counts := consistent.counts
      rw [dispatching] at counts
      simp [Phase.Counts, absent] at counts
  | @dispatch _ _ message args _ dispatching holds ran =>
      have sound := consistent.sound
      rw [dispatching] at sound
      simp only [Phase.inHand, holds] at sound
      rcases run_dispatchMessage platform sourceMod message sound with
        ⟨other, ran', _, dispatched⟩ | ⟨_, defect, other, crashed⟩
      · rw [ran, EStateM.Result.ok.injEq] at ran'
        obtain ⟨_, rfl⟩ := ran'
        obtain ⟨entry, rfl, records, added⟩ := dispatched.journal journal
        exact .inr ⟨entry, ⟨by simp [dispatching, Phase.inFlight], args, holds, records⟩, added⟩
      · rw [ran] at crashed
        cases crashed

theorem recorded_of_run
    (run : Run (Step platform sourceMod) (System.start config) path system) :
    ∃ entries, Journal entries system.extension ∧ ∀ entry ∈ entries, ∃ before after,
      [before, after] <:+: path ++ [system] ∧ before.Finishes sourceMod after entry := by
  obtain ⟨entries, ⟨_, journal⟩, told⟩ := run.logged
    (fun entries system => system.Consistent platform config ∧ Journal entries system.extension)
    (System.Finishes sourceMod)
    ⟨consistent_start platform config, rfl, rfl, rfl⟩ fun stepped held =>
      (stepped.journal held.1 held.2).imp (fun same => ⟨stepped.consistent held.1, same⟩)
        fun ⟨entry, ends, added⟩ => ⟨entry, ends, stepped.consistent held.1, added⟩
  exact ⟨entries, journal, told⟩

end

end SocketEvents
