import SocketEvents.EventArgsCore
import SocketEvents.Heap

/-!
The message path the two servers share: the configuration, the event queue, and
`ParseMessageAndEnqueue`.
-/

namespace SocketEvents

open Execution

structure Config where
  websockets : Bool := true
  port : Int32 := 25570
  secure : Bool := true
  publicKeyFile : CString := []
  publicKeyPem : CString := []
  eventsPerFrame : Int32 := 4
  tokens : List CString := []

/-- The address of an `EventArgs` that `new` allocated. -/
abbrev ArgsRef := Nat

/-- `args` is a pointer, `none` when it is null. -/
structure EventMessage where
  name : CString
  args : Option ArgsRef
  deriving DecidableEq, Repr

/-- A FIFO queue, with the history of what went in and came out. -/
structure ConcurrentQueue where
  contents : List EventMessage := []
  enqueued : List EventMessage := []
  dequeued : List EventMessage := []

namespace ConcurrentQueue

def enqueue (message : EventMessage) (queue : ConcurrentQueue) : ConcurrentQueue :=
  { queue with
    contents := queue.contents ++ [message]
    enqueued := queue.enqueued ++ [message] }

def tryDequeue (queue : ConcurrentQueue) : Option EventMessage × ConcurrentQueue :=
  match queue.contents with
  | [] => (none, queue)
  | message :: rest =>
      (some message, { queue with contents := rest, dequeued := queue.dequeued ++ [message] })

theorem tryDequeue_some {queue after : ConcurrentQueue} {message : EventMessage}
    (result : queue.tryDequeue = (some message, after)) :
    queue.contents = message :: after.contents ∧ after.enqueued = queue.enqueued ∧
      after.dequeued = queue.dequeued ++ [message] := by
  unfold tryDequeue at result
  split at result
  · simp at result
  · rename_i contents
    simp only [Prod.mk.injEq, Option.some.injEq] at result
    obtain ⟨rfl, rfl⟩ := result
    exact ⟨contents, rfl, rfl⟩

theorem tryDequeue_none {queue after : ConcurrentQueue}
    (result : queue.tryDequeue = (none, after)) : queue.contents = [] ∧ after = queue := by
  unfold tryDequeue at result
  split at result
  · rename_i contents
    simp only [Prod.mk.injEq, true_and] at result
    exact ⟨contents, result.symm⟩
  · simp at result

end ConcurrentQueue

structure EventStore where
  eventQueue : ConcurrentQueue := {}
  objects : Heap EventArgs := .empty

def EventStore.send (name : CString) (args : EventArgs) (store : EventStore) : EventStore where
  eventQueue := store.eventQueue.enqueue { name, args := some store.objects.next }
  objects := store.objects.allocate args

/-- The one difference is a message with this event at the end, in storage of its own. -/
structure EventStore.Adds (name : CString) (args : EventArgs) (before after : EventStore) :
    Prop where
  appended : ∃ ref, before.objects.load ref = none ∧ after.objects.load ref = some args ∧
    after.eventQueue.contents = before.eventQueue.contents ++ [{ name, args := some ref }] ∧
    after.eventQueue.enqueued = before.eventQueue.enqueued ++ [{ name, args := some ref }] ∧
    ∀ other, other ≠ ref → after.objects.load other = before.objects.load other
  dequeued : after.eventQueue.dequeued = before.eventQueue.dequeued
  freed : after.objects.freed = before.objects.freed

theorem EventStore.adds_send (name : CString) (args : EventArgs) (store : EventStore) :
    Adds name args store (store.send name args) :=
  ⟨⟨_, store.objects.load_next, store.objects.load_allocate_new args, rfl, rfl,
    fun _ different => Heap.load_allocate_other args different⟩, rfl,
      store.objects.freed_allocate args⟩

inductive MessageParseStatus
  | ok
  | parseError
  | authFailed
  deriving DecidableEq, Repr

section
variable (platform : Platform)

def authenticate (tokens : List CString) (json : Json) : Exec Exception Defect EventStore Bool :=
  if tokens.length = 0 then
    return true
  else if json.contains (text "token") then do
    let token ← liftThrow (json.member (text "token")).getString
    return tokens.contains token
  else
    return false

/-- `config` is the base class's pointer, `none` when no constructor has written it. -/
def parseMessageAndEnqueue (config : Option Config) (json : Json) :
    Exec Exception Defect EventStore MessageParseStatus := do
  let config ← initialised config
  let authenticated ← authenticate config.tokens json
  if !authenticated then
    return .authFailed
  else if json.contains (text "event") && json.contains (text "args") then
    let name ← liftThrow (json.member (text "event")).getString
    let args ← liftFault (ofJson platform (json.member (text "args")))
    modify (EventStore.send name args)
    return .ok
  else
    return .parseError

end

/-! `json::parse` -/

section
variable (parse : CString → Except Exception Json)

def ThrowsStd : Prop := ∀ bytes exception, parse bytes = .error exception → exception.isStd = true

/-- The names of every object are ordered and distinct. -/
def ParsesWellFormed : Prop := ∀ bytes json, parse bytes = .ok json → json.WellFormed

end

section
variable {platform : Platform}

inductive ParseOutcome (platform : Platform) (json : Json) (store : EventStore) :
    EStateM.Result (Fault Exception Defect) EventStore MessageParseStatus → Prop
  | sent (name : CString) (args : EventArgs) :
      (json.member (text "event")).getString = .ok name →
      ofJson platform (json.member (text "args")) = .ok args →
      ParseOutcome platform json store (.ok .ok (store.send name args))
  | refused (status : MessageParseStatus) : status ≠ .ok →
      ParseOutcome platform json store (.ok status store)
  | failed (fault : Fault Exception Defect) : ParseOutcome platform json store (.error fault store)

theorem run_authenticate (tokens : List CString) (json : Json) (store : EventStore) :
    (∃ authenticated, (authenticate tokens json).run store = .ok authenticated store) ∨
      ∃ exception, (authenticate tokens json).run store = .error (.thrown exception) store := by
  unfold authenticate
  split
  · exact .inl ⟨true, rfl⟩
  · split
    · cases (json.member (text "token")).getString with
      | ok token => exact .inl ⟨tokens.contains token, rfl⟩
      | error exception => exact .inr ⟨exception, rfl⟩
    · exact .inl ⟨false, rfl⟩

theorem parseMessageAndEnqueue_outcome (config : Option Config) (json : Json)
    (store : EventStore) :
    ParseOutcome platform json store ((parseMessageAndEnqueue platform config json).run store) := by
  cases config with
  | none => exact .failed _
  | some config =>
      rcases run_authenticate config.tokens json store with ⟨authenticated, asked⟩ |
        ⟨exception, asked⟩
      · cases authenticated with
        | false =>
            have refused : (parseMessageAndEnqueue platform (some config) json).run store =
                .ok .authFailed store := by
              simp [parseMessageAndEnqueue, initialised, asked]
            rw [refused]
            exact .refused _ (by simp)
        | true =>
            by_cases complete : (json.contains (text "event") &&
              json.contains (text "args")) = true
            · cases named : (json.member (text "event")).getString with
              | error exception =>
                  have threw : (parseMessageAndEnqueue platform (some config) json).run store =
                      .error (.thrown exception) store := by
                    simp [parseMessageAndEnqueue, initialised, asked, complete, named]
                  rw [threw]
                  exact .failed _
              | ok name =>
                  cases built : ofJson platform (json.member (text "args")) with
                  | error fault =>
                      have failed : (parseMessageAndEnqueue platform (some config) json).run
                          store = .error fault store := by
                        simp [parseMessageAndEnqueue, initialised, asked, complete, named, built]
                      rw [failed]
                      exact .failed _
                  | ok args =>
                      have sent : (parseMessageAndEnqueue platform (some config) json).run
                          store = .ok .ok (store.send name args) := by
                        simp [parseMessageAndEnqueue, initialised, asked, complete, named, built]
                      rw [sent]
                      exact .sent name args named built
            · have refused : (parseMessageAndEnqueue platform (some config) json).run store =
                  .ok .parseError store := by
                simp [parseMessageAndEnqueue, initialised, asked, complete]
              rw [refused]
              exact .refused _ (by simp)
      · have threw : (parseMessageAndEnqueue platform (some config) json).run store =
            .error (.thrown exception) store := by
          simp [parseMessageAndEnqueue, initialised, asked]
        rw [threw]
        exact .failed _

end

end SocketEvents
