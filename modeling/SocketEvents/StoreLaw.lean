import SocketEvents.RoundTrip

/-!
The setters as a store: what a getter answers right after a setter, on any tree that the
constructors and the setters can build.
-/

namespace SocketEvents

open Execution

inductive SetCall
  | string (key : CString) (value : CString)
  | int (key : CString) (value : Int32)
  | float (key : CString) (value : Float32)
  | bool (key : CString) (value : Bool)
  | eventArgs (key : CString) (object : EventArgs)

namespace SetCall

def key : SetCall → CString
  | .string key _ => key
  | .int key _ => key
  | .float key _ => key
  | .bool key _ => key
  | .eventArgs key _ => key

def element : SetCall → ElementType
  | .string _ _ => .string
  | .int _ _ => .int32
  | .float _ _ => .float
  | .bool _ _ => .bool
  | .eventArgs _ _ => .eventArgs

def value : SetCall → AnyValue EventArgs
  | .string _ value => .string value
  | .int _ value => .int32 value
  | .float _ value => .float value
  | .bool _ value => .bool value
  | .eventArgs _ object => .eventArgs object

def run (platform : Platform) : SetCall → Lookup Unit
  | .string key value => setString platform key value
  | .int key value => setInt platform key value
  | .float key value => setFloat platform key value
  | .bool key value => setBool platform key value
  | .eventArgs key object => setEventArgs platform key object

theorem run_eq (platform : Platform) (call : SetCall) :
    call.run platform = setArgument platform call.element.tag call.value call.key := by
  cases call <;> rfl

theorem scalarType_value (call : SetCall) :
    call.value.scalarType = some call.element.tag := by
  cases call <;> rfl

end SetCall

section
variable {platform : Platform} {tree : EventArgs} {key : CString}

theorem run_containsKey_plain (plain : PlainName key) (tree : EventArgs) :
    (containsKey platform key).run tree = .ok (tree.find key).isSome tree := by
  simp only [containsKey, containsKeyAt, callDepth, containsKeyWithin,
    plain.component.getKeyAsPath, getArgumentWithPathFrom, EStateM.run_bind, readArgs,
    EStateM.run_get, EventArgs.deref, EStateM.run_pure]
  cases found : tree.find key <;> simp

theorem run_argumentMapAt_root {argument : Argument EventArgs}
    (found : tree.find key = some argument) :
    (argumentMapAt [] key).run tree = .ok ⟨[], key⟩ tree := by
  simp [argumentMapAt, readArgs, EventArgs.deref, found]

def storedArgument (call : SetCall) (tree : EventArgs) : Argument EventArgs :=
  { ((tree.find call.key).getD (.named call.key)).clearValue with
    type := some call.element.tag
    value := call.value }

theorem run_set (call : SetCall) (plain : PlainName call.key) (tree : EventArgs) :
    (call.run platform).run tree =
      .ok () (tree.insert call.key (storedArgument call tree)) := by
  have contains : (containsKey platform call.key).run tree = _ := run_containsKey_plain plain tree
  rw [SetCall.run_eq]
  cases found : tree.find call.key with
  | some argument =>
      simp [setArgument, getOrAddArgument, contains, found, run_argumentMapAt_root found,
        readArgument, readArgs, EventArgs.deref, writeArgument, EventArgs.insertAt, storedArgument]
  | none =>
      have added : (tree.insert call.key (.named call.key)).find call.key =
          some (.named call.key) := by simp [EventArgs.find_insert]
      simp [setArgument, getOrAddArgument, contains, found, run_argumentMapAt_root added,
        readArgument, readArgs, EventArgs.deref, writeArgument, EventArgs.insertAt,
        EventArgs.insert_insert, storedArgument, added]

def Local {α : Type} (key : CString) (call : Lookup α) (post : α → Prop) : Prop :=
  ReadsOnly (EventArgs.find key) call post

theorem local_of_find {call : Lookup (Option ArgumentPtr)}
    (ran : ∀ tree : EventArgs, call.run tree = .ok ((tree.find key).map fun _ => ⟨[], key⟩) tree) :
    Local key call fun found => ∀ ptr, found = some ptr → ptr = ⟨[], key⟩ := by
  refine .of_run (fun shown => .ok (shown.map fun _ => ⟨[], key⟩)) ran ?_
  rintro shown _ ⟨⟩ ptr found
  obtain ⟨_, _, rfl⟩ := Option.map_eq_some_iff.mp found
  rfl

theorem local_getArgumentWithPathAt (plain : PlainName key) :
    Local key (getArgumentWithPathAt platform [] (getKeyAsPath key))
      fun found => ∀ ptr, found = some ptr → ptr = ⟨[], key⟩ := by
  refine local_of_find fun tree => ?_
  simp only [plain.component.getKeyAsPath, getArgumentWithPathAt, getArgumentWithPathFrom,
    EStateM.run_bind, readArgs, EStateM.run_get, EventArgs.deref, EStateM.run_pure]
  cases found : tree.find key <;> simp

theorem local_containsKey (plain : PlainName key) :
    Local key (containsKey platform key) fun _ => True :=
  .of_run (fun shown => .ok shown.isSome) (run_containsKey_plain plain) fun _ _ _ => trivial

theorem local_getArgumentWith (plain : PlainName key) :
    Local key (getArgumentWith (containsKeyAt platform) [] key)
      fun found => ∀ ptr, found = some ptr → ptr = ⟨[], key⟩ := by
  refine local_of_find fun tree => ?_
  have contains : (containsKeyAt platform [] key).run tree = .ok (tree.find key).isSome tree :=
    run_containsKey_plain plain tree
  cases found : tree.find key with
  | none => simp [getArgumentWith, contains, found]
  | some argument => simp [getArgumentWith, contains, found, run_argumentMapAt_root found]

theorem local_readArgument (key : CString) :
    Local key (readArgument ⟨[], key⟩) fun _ => True := by
  refine .of_run (fun shown => shown.elim (.error (.undefined .danglingPointer)) .ok)
    (fun tree => ?_) fun _ _ _ => trivial
  cases found : tree.find key <;> simp [readArgument, readArgs, EventArgs.deref, found, inState]

theorem local_initialised {α : Type} (key : CString) (field : Option α) :
    Local key (initialised field) fun _ => True := by
  cases field with
  | some value => exact .pure trivial
  | none => exact .undefined _

theorem local_readType (key : CString) : Local key (readType ⟨[], key⟩) fun _ => True :=
  .bind (local_readArgument key) fun _ _ => local_initialised key _

theorem local_readIsArray (key : CString) : Local key (readIsArray ⟨[], key⟩) fun _ => True :=
  .bind (local_readArgument key) fun _ _ => local_initialised key _

theorem local_getValue (element : ElementType) (key : CString) :
    Local key (getValue element ⟨[], key⟩) fun _ => True := by
  refine .bind (local_readArgument key) fun argument _ => ?_
  split
  · refine .bind (local_initialised key _) fun isArray _ => ?_
    split
    · exact .pure trivial
    · exact .pure trivial
  · exact .pure trivial

theorem local_getValueAsArray (element : ElementType) (key : CString) :
    Local key (getValueAsArray element ⟨[], key⟩) fun _ => True := by
  refine .bind (local_readArgument key) fun argument _ => ?_
  split
  · refine .bind (local_initialised key _) fun isArray _ => ?_
    split
    · split
      · exact .pure trivial
      · exact .raise _
    · exact .pure trivial
  · exact .pure trivial

theorem local_getValueIfSameType (plain : PlainName key) (element : ElementType)
    (type : EventArgumentType) (isArray : Bool) :
    Local key (getValueIfSameType platform element type isArray (getKeyAsPath key))
      fun _ => True := by
  have first : Local key
      (walkStep platform (containsKeyAt platform) element type key (some []) none)
      fun step => ∃ lastEventArgs lastArg, step = .next lastEventArgs lastArg ∧
        ∀ ptr, lastArg = some ptr → ptr = ⟨[], key⟩ := by
    refine .bind (local_getArgumentWith plain) fun found only => ?_
    cases found with
    | none => exact .pure ⟨_, _, rfl, by simp⟩
    | some ptr =>
        cases only ptr rfl
        refine .bind (local_readType key) fun stored _ => ?_
        split
        · exact .bind (local_getValue .eventArgs key) fun value _ => .pure ⟨_, _, rfl, by simp⟩
        · exact .pure ⟨_, _, rfl, by simp⟩
  rw [plain.component.getKeyAsPath]
  refine .bind first ?_
  rintro _ ⟨lastEventArgs, lastArg, rfl, only⟩
  cases lastArg with
  | none => exact .pure trivial
  | some ptr =>
      cases only ptr rfl
      refine .bind (local_readType key) fun stored _ => ?_
      split
      · refine .bind (local_readIsArray key) fun flag _ => ?_
        split
        · exact local_getValue element key
        · exact .pure trivial
      · exact .pure trivial

theorem local_getterOf (plain : PlainName key) (element : ElementType) :
    Local key (getterOf platform element key) fun _ => True := by
  cases element <;> exact local_getValueIfSameType plain _ _ false

theorem local_getArrayValueIfSameType (plain : PlainName key) (element : ElementType)
    (type : EventArgumentType) :
    Local key (getArrayValueIfSameType platform element type (getKeyAsPath key))
      fun _ => True := by
  refine .bind (local_getArgumentWithPathAt plain) fun found only => ?_
  cases found with
  | none => exact .pure trivial
  | some ptr =>
      cases only ptr rfl
      refine .bind (local_readIsArray key) fun isArray _ => ?_
      split
      · refine .bind (local_readType key) fun stored _ => ?_
        split
        · refine .bind (local_getValueAsArray element key) fun holds _ => ?_
          split
          · exact .pure trivial
          · exact .pure trivial
        · exact .pure trivial
      · exact .pure trivial

theorem local_getArrayLength (plain : PlainName key) :
    Local key (getArrayLength platform key) fun _ => True := by
  refine .bind (local_getArgumentWithPathAt plain) fun found only => ?_
  cases found with
  | none => exact .pure trivial
  | some ptr =>
      cases only ptr rfl
      exact .bind (local_readArgument key) fun argument _ => .pure trivial

theorem getterOf_eq (platform : Platform) (element : ElementType) (key : CString) :
    getterOf platform element key =
      getValueIfSameType platform element element.tag false (getKeyAsPath key) := by
  cases element <;> rfl

theorem run_getValue_scalar {ptr : ArgumentPtr} {argument : Argument EventArgs}
    {type : EventArgumentType} {isArray : Bool} (element : ElementType)
    (valid : tree.argumentAt ptr = some argument) (real : type ≠ .none)
    (held : argument.value.scalarType = some type) (flagged : argument.isArray = some isArray) :
    (getValue element ptr).run tree =
      .ok (if isArray = false ∧ type = element.tag then some ⟨ptr, none⟩ else none) tree := by
  have full := argument.value.hasValue_of_scalarType held real
  have holds := argument.value.holds_iff element
  rw [held, Option.some.injEq] at holds
  cases isArray with
  | true => simp [getValue, run_readArgument valid, full, flagged, initialised]
  | false =>
      by_cases same : type = element.tag
      · simp [getValue, run_readArgument valid, full, flagged, initialised, holds.mpr same, same]
      · have other : argument.value.holds element = false := by simpa using mt holds.mp same
        simp [getValue, run_readArgument valid, full, flagged, initialised, other, same]

theorem run_getterOf_scalar (plain : PlainName key) (element : ElementType)
    {argument : Argument EventArgs} {type : EventArgumentType} {isArray : Bool}
    (found : tree.find key = some argument) (real : type ≠ .none)
    (typed : argument.type = some type) (held : argument.value.scalarType = some type)
    (flagged : argument.isArray = some isArray) :
    (getterOf platform element key).run tree =
      .ok (if isArray = false ∧ type = element.tag then some ⟨⟨[], key⟩, none⟩ else none)
        tree := by
  have valid : tree.argumentAt ⟨[], key⟩ = some argument := by
    simp [EventArgs.argumentAt, EventArgs.deref, found]
  have contains : (containsKeyAt platform [] key).run tree = .ok (tree.find key).isSome tree :=
    run_containsKey_plain plain tree
  have asked : (getArgumentWith (containsKeyAt platform) [] key).run tree =
      .ok (some ⟨[], key⟩) tree := by
    simp [getArgumentWith, contains, found, run_argumentMapAt_root found]
  have stepped : ∃ lastEventArgs,
      (walkStep platform (containsKeyAt platform) element element.tag key (some []) none).run tree =
        .ok (.next lastEventArgs (some ⟨[], key⟩)) tree := by
    by_cases isArgs : type = .args
    · exact ⟨_, by simp [walkStep, asked, run_readType valid typed, isArgs,
        run_getValue_scalar .eventArgs valid real held flagged]; rfl⟩
    · exact ⟨none, by simp [walkStep, asked, run_readType valid typed, isArgs]⟩
  obtain ⟨lastEventArgs, stepped⟩ := stepped
  rw [getterOf_eq, plain.component.getKeyAsPath]
  simp only [getValueIfSameType, getValueIfSameTypeFrom, EStateM.run_bind, stepped,
    run_readType valid typed]
  by_cases same : type = element.tag
  · simp only [same, if_true, EStateM.run_bind, run_readIsArray valid flagged]
    cases isArray with
    | true => simp
    | false =>
        simp only [if_true, run_getValue_scalar element valid real held flagged, same]
  · simp [same]

end

inductive Stored (platform : Platform) : EventArgs → Prop
  | empty : Stored platform .empty
  | json (members : List (CString × Json)) (tree : EventArgs) :
      (Json.object members).WellFormed → (∀ name ∈ members.map Prod.fst, PlainName name) →
      ofJson platform (.object members) = .ok tree → Stored platform tree
  | set (tree after : EventArgs) (call : SetCall) : Stored platform tree → PlainName call.key →
      (call.run platform).run tree = .ok () after → Stored platform after

theorem Stored.flagged {platform : Platform} {tree : EventArgs} (stored : Stored platform tree) :
    ∀ {key argument}, PlainName key → tree.find key = some argument →
      ∃ isArray, argument.isArray = some isArray := by
  induction stored with
  | empty =>
      intro key argument plain found
      simp [EventArgs.find, EventArgs.empty, EventArgs.argumentMap] at found
  | json members tree wellFormed names decoded =>
      intro key argument plain found
      have regular := (completed_filled wellFormed decoded).regular
      cases regular.consistent plain.component found with
      | scalar _ _ isArray _ _ => exact ⟨false, isArray⟩
      | array _ _ isArray _ _ => exact ⟨true, isArray⟩
  | set tree after call _ plainKey ran ih =>
      intro key argument plain found
      rw [run_set call plainKey] at ran
      simp only [EStateM.Result.ok.injEq, true_and] at ran
      rw [← ran, EventArgs.find_insert] at found
      split at found
      · simp only [Option.some.injEq] at found
        subst found
        cases present : tree.find call.key with
        | none => exact ⟨false, by simp [storedArgument, present, Argument.named,
            Argument.clearValue]⟩
        | some previous =>
            obtain ⟨isArray, flagged⟩ := ih plainKey present
            exact ⟨isArray, by simp [storedArgument, present, Argument.clearValue, flagged]⟩
      · exact ih plain found

def SameAnswer {α : Type} (call : Lookup α) (before after : EventArgs) : Prop :=
  ∃ outcome : Except (Fault Exception Defect) α,
    call.run before = inState outcome before ∧ call.run after = inState outcome after

structure SameAnswers (platform : Platform) (before after : EventArgs) (key : CString) :
    Prop where
  contains : SameAnswer (containsKey platform key) before after
  length : SameAnswer (getArrayLength platform key) before after
  scalars : ∀ element, SameAnswer (getterOf platform element key) before after
  strings : SameAnswer (getStringArray platform key) before after
  ints : SameAnswer (getIntArray platform key) before after
  floats : SameAnswer (getFloatArray platform key) before after
  argument : after.find key = before.find key

structure SetEffect (platform : Platform) (call : SetCall) (before after : EventArgs) :
    Prop where
  stored : Resolves after (getterOf platform call.element call.key) call.value
  others : ∀ other, other ≠ call.element → ReturnsNull after (getterOf platform other call.key)
  argument : ∃ argument, after.find call.key = some argument ∧ argument.isArray = some false ∧
    argument.length = 0
  frame : ∀ key, PlainName key → key ≠ call.key → SameAnswers platform before after key

def StoreLaw (platform : Platform) (tree : EventArgs) (call : SetCall) : Prop :=
  ∃ after, (call.run platform).run tree = .ok () after ∧ SetEffect platform call tree after

section
variable {platform : Platform} {tree : EventArgs}

theorem sameAnswer_of_local {α : Type} {call : Lookup α} {key : CString} {post : α → Prop}
    {before after : EventArgs} (reads : Local key call post)
    (same : before.find key = after.find key) : SameAnswer call before after := by
  obtain ⟨outcome, ranBefore, ranAfter, _⟩ := reads before after same
  exact ⟨outcome, ranBefore, ranAfter⟩

theorem sameAnswers_of_find {before after : EventArgs} {key : CString} (plain : PlainName key)
    (same : before.find key = after.find key) : SameAnswers platform before after key where
  contains := sameAnswer_of_local (local_containsKey plain) same
  length := sameAnswer_of_local (local_getArrayLength plain) same
  scalars := fun element => sameAnswer_of_local (local_getterOf plain element) same
  strings := sameAnswer_of_local (local_getArrayValueIfSameType plain .string .string) same
  ints := sameAnswer_of_local (local_getArrayValueIfSameType plain .int32 .int32) same
  floats := sameAnswer_of_local (local_getArrayValueIfSameType plain .float .float) same
  argument := same.symm

theorem setEffect_of_scalar {call : SetCall} (plain : PlainName call.key)
    (flagged : (storedArgument call tree).isArray = some false) :
    SetEffect platform call tree (tree.insert call.key (storedArgument call tree)) := by
  have found : (tree.insert call.key (storedArgument call tree)).find call.key =
      some (storedArgument call tree) := by simp [EventArgs.find_insert]
  have answers : ∀ element : ElementType, (getterOf platform element call.key).run
      (tree.insert call.key (storedArgument call tree)) = _ := fun element =>
    run_getterOf_scalar plain element found call.element.tag_ne_none rfl call.scalarType_value
      flagged
  refine ⟨⟨⟨⟨[], call.key⟩, none⟩, ?_, ?_⟩, ?_, ⟨_, found, flagged, rfl⟩, ?_⟩
  · simp [answers]
  · have located : (tree.insert call.key (storedArgument call tree)).argumentAt
        ⟨[], call.key⟩ = some (storedArgument call tree) := by
      simp [EventArgs.argumentAt, EventArgs.deref, found]
    rw [read_element located]
    cases call <;> rfl
  · intro other different
    have otherTag : call.element.tag ≠ other.tag :=
      fun same => different (ElementType.tag_injective same).symm
    simp [ReturnsNull, answers, otherTag]
  · intro key plainKey different
    exact sameAnswers_of_find plainKey (by simp [EventArgs.find_insert, different])

/-- A setter acts as a store exactly when its key does not hold an array: the flag is the one
field `ClearValue` leaves. -/
theorem storeLaw_iff (stored : Stored platform tree) {call : SetCall}
    (plain : PlainName call.key) :
    StoreLaw platform tree call ↔
      ∀ argument, tree.find call.key = some argument → argument.isArray ≠ some true := by
  have ran : (call.run platform).run tree = _ := run_set call plain tree
  constructor
  · rintro ⟨after, ran', effect⟩ argument found
    rw [ran] at ran'
    simp only [EStateM.Result.ok.injEq, true_and] at ran'
    subst ran'
    obtain ⟨kept, same, flagged, _⟩ := effect.argument
    simp only [EventArgs.find_insert, if_true, Option.some.injEq] at same
    subst same
    have unchanged : argument.isArray = some false := by
      simpa [storedArgument, found, Argument.clearValue] using flagged
    simp [unchanged]
  · intro scalar
    refine ⟨_, ran, setEffect_of_scalar plain ?_⟩
    cases found : tree.find call.key with
    | none => simp [storedArgument, found, Argument.named, Argument.clearValue]
    | some argument =>
        obtain ⟨isArray, flagged⟩ := stored.flagged plain found
        cases isArray with
        | true => exact (scalar argument found flagged).elim
        | false => simp [storedArgument, found, Argument.clearValue, flagged]

end

def arrayMembers : List (CString × Json) := [(text "k", .array [.numberUnsigned 1])]

def arrayArgumentOne : Argument EventArgs where
  key := text "k"
  value := .int32Array [1]
  type := some .int32
  isArray := some true
  length := 1

theorem stored_arrayMembers : Stored .x64 (.mk [(text "k", arrayArgumentOne)]) :=
  .json arrayMembers _ (by decide) (by decide) rfl

theorem storeLaw_iff_otherKey :
    StoreLaw .x64 (.mk [(text "k", arrayArgumentOne)]) (.int (text "n") 5) := by
  refine (storeLaw_iff stored_arrayMembers (by decide)).mpr ?_
  intro argument found
  have missing : (EventArgs.mk [(text "k", arrayArgumentOne)]).find (text "n") = none := by decide
  cases missing.symm.trans found

/-- Set over an array, an integer is stored and `GetInt` returns null. -/
theorem arrayKey_breaksLaw : ¬ ∀ platform tree call, Stored platform tree →
    PlainName call.key → StoreLaw platform tree call := by
  intro law
  have plain : PlainName (SetCall.int (text "k") 5).key := by decide
  obtain ⟨after, ran, effect⟩ := law .x64 _ (.int (text "k") 5) stored_arrayMembers plain
  rw [run_set _ plain] at ran
  simp only [EStateM.Result.ok.injEq, true_and] at ran
  subst ran
  obtain ⟨ptr, answered, _⟩ := effect.stored
  have silent : (getInt .x64 (text "k")).run (.insert (text "k")
      (storedArgument (.int (text "k") 5) (.mk [(text "k", arrayArgumentOne)]))
      (.mk [(text "k", arrayArgumentOne)])) = _ :=
    run_getterOf_scalar plain .int32 (AssocMap.find_insert_same _ _ _)
      (ElementType.tag_ne_none .int32) rfl rfl rfl
  have null := silent.symm.trans answered
  simp at null

end SocketEvents
