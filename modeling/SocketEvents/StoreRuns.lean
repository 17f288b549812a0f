import SocketEvents.StoreLaw

/-!
Runs of setters on a tree. What counts for a key is the last call that set it, and whether the
key held an array before the first.
-/

namespace SocketEvents

open Execution

def lastSet (key : CString) : List SetCall → Option SetCall
  | [] => none
  | call :: rest => (lastSet key rest).or (if call.key = key then some call else none)

theorem lastSet_key {key : CString} {calls : List SetCall} {call : SetCall}
    (last : lastSet key calls = some call) : call.key = key := by
  induction calls with
  | nil => cases last
  | cons first rest ih =>
      simp only [lastSet, Option.or_eq_some_iff] at last
      rcases last with later | ⟨_, here⟩
      · exact ih later
      · split at here
        · rename_i same
          exact Option.some.inj here ▸ same
        · cases here

section
variable {platform : Platform} {tree after : EventArgs}

theorem storedArgument_insert (call first : SetCall) (tree : EventArgs) :
    storedArgument call (tree.insert first.key (storedArgument first tree)) =
      storedArgument call tree := by
  simp only [storedArgument, EventArgs.find_insert]
  split
  · rename_i same
    simp [same, Argument.clearValue]
  · rfl

theorem find_setRun {calls : List SetCall} (plain : ∀ call ∈ calls, PlainName call.key)
    (tree : EventArgs) :
    ∃ after, (calls.forM (SetCall.run platform)).run tree = .ok () after ∧ ∀ key,
      after.find key = match lastSet key calls with
        | some call => some (storedArgument call tree)
        | none => tree.find key := by
  induction calls generalizing tree with
  | nil => exact ⟨tree, rfl, fun key => rfl⟩
  | cons first rest ih =>
      have ran : (first.run platform).run tree = _ := run_set first (plain first (by simp)) tree
      obtain ⟨after, finished, found⟩ := ih (fun call member => plain call (by simp [member]))
        (tree.insert first.key (storedArgument first tree))
      refine ⟨after, ?_, fun key => ?_⟩
      · change (first.run platform >>= fun _ => rest.forM (SetCall.run platform)).run tree = _
        rw [EStateM.run_bind, ran]
        exact finished
      rw [found key]
      cases later : lastSet key rest with
      | some call => simp [lastSet, later, storedArgument_insert]
      | none =>
          by_cases same : first.key = key
          · simp [lastSet, later, same, EventArgs.find_insert]
          · simp [lastSet, later, same, Ne.symm same, EventArgs.find_insert]

/-- A key that was set answers with its last value, unless an array was there first. -/
structure RunEffect (platform : Platform) (calls : List SetCall) (before after : EventArgs)
    (key : CString) : Prop where
  untouched : lastSet key calls = none → SameAnswers platform before after key
  stored : ∀ call, lastSet key calls = some call →
    (∀ argument, before.find key = some argument → argument.isArray ≠ some true) →
    Resolves after (getterOf platform call.element key) call.value ∧
      ∀ other, other ≠ call.element → ReturnsNull after (getterOf platform other key)
  shadowed : ∀ call argument, lastSet key calls = some call → before.find key = some argument →
    argument.isArray = some true → ∀ element, ReturnsNull after (getterOf platform element key)

theorem stored_answers {key : CString} {call : SetCall} {isArray : Bool} (plain : PlainName key)
    (found : after.find key = some (storedArgument call tree))
    (flagged : (storedArgument call tree).isArray = some isArray) (element : ElementType) :
    (getterOf platform element key).run after =
      .ok (if isArray = false ∧ call.element.tag = element.tag then some ⟨⟨[], key⟩, none⟩
        else none) after :=
  run_getterOf_scalar plain element found call.element.tag_ne_none rfl call.scalarType_value flagged

theorem resolves_of_find {key : CString} {call : SetCall} (plain : PlainName key)
    (found : after.find key = some (storedArgument call tree))
    (flagged : (storedArgument call tree).isArray = some false) :
    Resolves after (getterOf platform call.element key) call.value ∧
      ∀ other, other ≠ call.element → ReturnsNull after (getterOf platform other key) := by
  have located : after.argumentAt ⟨[], key⟩ = some (storedArgument call tree) := by
    simp [EventArgs.argumentAt, EventArgs.deref, found]
  refine ⟨⟨⟨⟨[], key⟩, none⟩, ?_, ?_⟩, fun other different => ?_⟩
  · simp [stored_answers plain found flagged]
  · rw [read_element located]
    cases call <;> rfl
  · have otherTag : call.element.tag ≠ other.tag :=
      fun same => different (ElementType.tag_injective same).symm
    simp [ReturnsNull, stored_answers plain found flagged, otherTag]

theorem set_runs (stored : Stored platform tree) {calls : List SetCall}
    (plain : ∀ call ∈ calls, PlainName call.key) :
    ∃ after, (calls.forM (SetCall.run platform)).run tree = .ok () after ∧
      ∀ key, PlainName key → RunEffect platform calls tree after key := by
  obtain ⟨after, ran, found⟩ := @find_setRun platform calls plain tree
  refine ⟨after, ran, fun key plainKey => ⟨fun never => ?_, fun call last scalar => ?_, ?_⟩⟩
  · exact sameAnswers_of_find plainKey (by simp [found, never])
  · obtain rfl := lastSet_key last
    have answered : after.find call.key = some (storedArgument call tree) := by
      simp [found, last]
    refine resolves_of_find plainKey answered ?_
    cases present : tree.find call.key with
    | none => simp [storedArgument, present, Argument.named, Argument.clearValue]
    | some argument =>
        obtain ⟨isArray, flagged⟩ := stored.flagged plainKey present
        cases isArray with
        | true => exact (scalar argument present flagged).elim
        | false => simp [storedArgument, present, Argument.clearValue, flagged]
  · intro call argument last present flagged element
    obtain rfl := lastSet_key last
    have kept : (storedArgument call tree).isArray = some true := by
      simp [storedArgument, present, Argument.clearValue, flagged]
    have answered : after.find call.key = some (storedArgument call tree) := by
      simp [found, last]
    simp [ReturnsNull, stored_answers plainKey answered kept]

end

def mixedCalls : List SetCall :=
  [.int (text "n") 1, .int (text "k") 5, .string (text "n") (text "a")]

theorem set_runs_mixed : ∃ after,
    (mixedCalls.forM (SetCall.run .x64)).run (.mk [(text "k", arrayArgumentOne)]) = .ok () after ∧
      Resolves after (getString .x64 (text "n")) (.string (text "a")) ∧
      ReturnsNull after (getInt .x64 (text "k")) := by
  have plain : ∀ call ∈ mixedCalls, PlainName call.key := by decide
  obtain ⟨after, ran, effect⟩ := set_runs stored_arrayMembers plain
  have overwritten := (effect (text "n") (by decide)).stored (.string (text "n") (text "a")) rfl
    (fun argument found => by cases found)
  have shadowed := (effect (text "k") (by decide)).shadowed (.int (text "k") 5) arrayArgumentOne
    rfl rfl rfl
  exact ⟨after, ran, overwritten.1, shadowed .int32⟩

end SocketEvents
