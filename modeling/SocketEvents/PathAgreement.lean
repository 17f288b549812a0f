import SocketEvents.EventArgsHandle
import SocketEvents.RoundTrip

/-!
`GetArgumentWithPath` against the getters. The walker gives up at the first object it enters,
so the two agree on single components and on paths that lead nowhere, and on nothing else.
-/

namespace SocketEvents

open Execution Json

def EventArgs.chainArgument : List CString → EventArgs → Option (Argument EventArgs)
  | [], _ => none
  | [name], args => args.find name
  | name :: next :: rest, args =>
      (args.child (name, none)).bind (chainArgument (next :: rest))

def EventArgs.storesChain (names : List CString) (args : EventArgs) : Bool :=
  (args.chainArgument names).isSome

structure PlainPath (names : List CString) (key : CString) : Prop where
  nonempty : names ≠ []
  plain : ∀ name ∈ names, PlainName name
  joined : joinPath names = key

theorem PlainPath.getKeyAsPath {names : List CString} {key : CString}
    (path : PlainPath names key) : getKeyAsPath key = names :=
  path.joined ▸ getKeyAsPath_joinPath names path.plain

def Returns {α : Type} (tree : EventArgs) (call : Lookup α) : Prop :=
  ∃ value after, call.run tree = .ok value after

def Gives {α : Type} (tree : EventArgs) (call : Lookup α) (value : α) : Prop :=
  ∃ after, call.run tree = .ok value after

structure WalkersAgree (platform : Platform) (tree : EventArgs) (key : CString) : Prop where
  returns : Returns tree (getArgumentWithPath platform key) ∧
    Returns tree (containsKey platform key) ∧ Returns tree (getValueRaw platform key) ∧
    Returns tree (getArrayLength platform key)
  contains : ∀ names, PlainPath names key →
    Gives tree (containsKey platform key) (tree.storesChain names)
  argument : ∀ names, PlainPath names key → tree.storesChain names = true →
    ∀ element ptr, Gives tree (getterOf platform element key) (some ptr) →
      Gives tree (getArgumentWithPath platform key) (some ptr.argument)
  array : ∀ names argument, PlainPath names key → tree.chainArgument names = some argument →
    argument.isArray = some true → Gives tree (smnEventArgsIsArray platform key) 1 ∧
      ∃ cell, Gives tree (smnEventArgsGetArrayLength platform key) cell ∧
        cell.toInt = argument.value.allocated

/-- The keys the walkers agree on: one component, an array under it being countable in a
cell, or several components that enter an object first and lead to nothing stored. -/
def AgreeingKey (tree : EventArgs) (key : CString) : Prop :=
  match getKeyAsPath key with
  | [] => False
  | [_] => PlainName key → ∀ argument, tree.find key = some argument →
      argument.isArray = some true → argument.value.allocated < 2 ^ 31
  | name :: _ :: _ => tree.holdsObject name = true ∧
      ∀ names, PlainPath names key → tree.storesChain names = false

theorem sizeCell_exact (size : Nat) : (sizeCell size).toInt = size ↔ size < 2 ^ 31 := by
  have value : (sizeCell size).toInt = (size : Int).bmod (2 ^ 32) := Int32.toInt_ofNat'
  constructor
  · intro exact
    have upper := (sizeCell size).toInt_lt
    omega
  · intro small
    rw [value]
    exact Int.bmod_eq_of_le (by omega) (by omega)

section
variable {platform : Platform} {tree : EventArgs} {key : CString}

theorem run_getArgumentWithPath (platform : Platform) (regular : tree.Regular) (key : CString) :
    (getArgumentWithPath platform key).run tree =
      (pathOutcome tree [] (getKeyAsPath key)).run tree :=
  run_getArgumentWithPathAt platform (EventArgs.deref_nil tree) regular (getKeyAsPath key)
    (getKeyAsPath_components key)

theorem null_of_walker (found : (getArgumentWithPath platform key).run tree = .ok none tree) :
    (containsKey platform key).run tree = .ok false tree ∧
      (getValueRaw platform key).run tree = .ok none tree ∧
      (getArrayLength platform key).run tree = .ok 0 tree := by
  have asked : (getArgumentWithPathAt platform [] (getKeyAsPath key)).run tree =
      .ok none tree := found
  simp [containsKey, containsKeyAt_eq, asked, getValueRaw, getArrayLength, found]

theorem argument_of_walker {ptr : ArgumentPtr} {argument : Argument EventArgs}
    (found : (getArgumentWithPath platform key).run tree = .ok (some ptr) tree)
    (stored : tree.argumentAt ptr = some argument) :
    (containsKey platform key).run tree = .ok true tree ∧
      (getValueRaw platform key).run tree = .ok (some ptr) tree ∧
      (getArrayLength platform key).run tree = .ok argument.length tree ∧
      (smnEventArgsGetArrayLength platform key).run tree =
        .ok (sizeCell argument.length) tree ∧
      ∀ isArray, argument.isArray = some isArray →
        (smnEventArgsIsArray platform key).run tree = .ok (boolCell isArray) tree := by
  have asked : (getArgumentWithPathAt platform [] (getKeyAsPath key)).run tree =
      .ok (some ptr) tree := found
  refine ⟨?_, ?_, ?_, ?_, ?_⟩
  · simp [containsKey, containsKeyAt_eq, asked]
  · simp [getValueRaw, found]
  · simp [getArrayLength, found, run_readArgument stored]
  · simp [smnEventArgsGetArrayLength, found, run_readArgument stored]
  · intro isArray written
    simp [smnEventArgsIsArray, found, run_readIsArray stored written]

theorem not_returns_of_undefined {α : Type} {call : Lookup α} {defect : Defect}
    (crashed : call.run tree = .error (.undefined defect) tree) : ¬ Returns tree call := by
  rintro ⟨value, after, returned⟩
  simp [crashed] at returned

theorem gives_unique {α : Type} {call : Lookup α} {value other : α} {after : EventArgs}
    (ran : call.run tree = .ok value after) (gives : Gives tree call other) : other = value := by
  obtain ⟨after', ran'⟩ := gives
  rw [ran] at ran'
  simp only [EStateM.Result.ok.injEq] at ran'
  exact ran'.1.symm

theorem agree_component {name : CString} (regular : tree.Regular)
    (path : getKeyAsPath key = [name]) :
    WalkersAgree platform tree key ↔ (PlainName key → ∀ argument,
      tree.find key = some argument → argument.isArray = some true →
        argument.value.allocated < 2 ^ 31) := by
  have component : Component name := getKeyAsPath_components key name (by simp [path])
  have found := run_getArgumentWithPath platform regular key
  rw [path] at found
  have single : ∀ names, PlainPath names key → names = [name] ∧ name = key := by
    intro names plain
    have same : names = [name] := plain.getKeyAsPath.symm.trans path
    have joined := plain.joined
    rw [same] at joined
    exact ⟨same, joined⟩
  constructor
  · intro agree plain argument stored isArray
    have split : PlainPath [key] key :=
      ⟨by simp, fun other member => List.mem_singleton.mp member ▸ plain, rfl⟩
    obtain ⟨_, cell, gives, exact⟩ := agree.array [key] argument split stored isArray
    have same := (single [key] split).2
    subst same
    have consistent := regular.consistent component stored
    have located : tree.argumentAt ⟨[], name⟩ = some argument := by
      simp [EventArgs.argumentAt, EventArgs.deref, stored]
    rw [pathOutcome, stored] at found
    obtain ⟨_, _, _, length, _⟩ := argument_of_walker found located
    rw [gives_unique length gives] at exact
    cases consistent with
    | scalar type typed notArray _ _ => simp [notArray] at isArray
    | array type _ _ _ allocated =>
        rw [← allocated] at exact ⊢
        exact (sizeCell_exact _).mp exact
  · intro countable
    cases stored : tree.find name with
    | none =>
        rw [pathOutcome, stored] at found
        obtain ⟨contains, raw, length⟩ := null_of_walker found
        refine ⟨⟨⟨_, _, found⟩, ⟨_, _, contains⟩, ⟨_, _, raw⟩, ⟨_, _, length⟩⟩, ?_, ?_, ?_⟩
        · intro names plain
          obtain ⟨rfl, _⟩ := single names plain
          exact ⟨tree, by simp [contains, EventArgs.storesChain, EventArgs.chainArgument, stored]⟩
        · intro names plain chain
          obtain ⟨rfl, _⟩ := single names plain
          simp [EventArgs.storesChain, EventArgs.chainArgument, stored] at chain
        · intro names argument plain chain
          obtain ⟨rfl, _⟩ := single names plain
          simp [EventArgs.chainArgument, stored] at chain
    | some argument =>
        have located : tree.argumentAt ⟨[], name⟩ = some argument := by
          simp [EventArgs.argumentAt, EventArgs.deref, stored]
        rw [pathOutcome, stored] at found
        obtain ⟨contains, raw, length, cells, arrays⟩ := argument_of_walker found located
        refine ⟨⟨⟨_, _, found⟩, ⟨_, _, contains⟩, ⟨_, _, raw⟩, ⟨_, _, length⟩⟩, ?_, ?_, ?_⟩
        · intro names plain
          obtain ⟨rfl, _⟩ := single names plain
          exact ⟨tree, by simp [contains, EventArgs.storesChain, EventArgs.chainArgument, stored]⟩
        · intro names plain _ element ptr gives
          have run := run_getterOf platform regular element key
          rw [path, walk_found located] at run
          have same := gives_unique run gives
          simp only [walk, located] at same
          split at same
          · simp only [Option.some.injEq] at same
            exact ⟨tree, same ▸ found⟩
          · simp at same
        · intro names other plain chain isArray
          obtain ⟨rfl, same⟩ := single names plain
          simp only [EventArgs.chainArgument, stored, Option.some.injEq] at chain
          subst chain same
          have small := countable (plain.plain name (by simp)) argument stored isArray
          refine ⟨⟨tree, arrays true isArray⟩, _, ⟨tree, cells⟩, ?_⟩
          cases regular.consistent component stored with
          | scalar type typed notArray _ _ => simp [notArray] at isArray
          | array type _ _ _ allocated =>
              rw [allocated]
              exact (sizeCell_exact _).mpr small

theorem agree_components {name next : CString} {rest : List CString} (regular : tree.Regular)
    (path : getKeyAsPath key = name :: next :: rest) :
    WalkersAgree platform tree key ↔ (tree.holdsObject name = true ∧
      ∀ names, PlainPath names key → tree.storesChain names = false) := by
  have found := run_getArgumentWithPath platform regular key
  rw [path] at found
  constructor
  · intro agree
    by_cases object : tree.holdsObject name = true
    · simp only [pathOutcome, object, if_true] at found
      obtain ⟨contains, _, _⟩ := null_of_walker found
      exact ⟨object, fun names plain => gives_unique contains (agree.contains names plain)⟩
    · simp only [pathOutcome, object] at found
      exact (not_returns_of_undefined found agree.returns.1).elim
  · rintro ⟨object, absent⟩
    simp only [pathOutcome, object, if_true] at found
    obtain ⟨contains, raw, length⟩ := null_of_walker found
    refine ⟨⟨⟨_, _, found⟩, ⟨_, _, contains⟩, ⟨_, _, raw⟩, ⟨_, _, length⟩⟩, ?_, ?_, ?_⟩
    · intro names plain
      exact ⟨tree, by rw [absent names plain]; exact contains⟩
    · intro names plain chain
      simp [absent names plain] at chain
    · intro names argument plain chain
      have missing := absent names plain
      simp [EventArgs.storesChain, chain] at missing

end

theorem walkersAgree_iff (platform : Platform) (json : Json) (tree : EventArgs) (key : CString)
    (wellFormed : json.WellFormed) (decoded : ofJson platform json = .ok tree) :
    WalkersAgree platform tree key ↔ AgreeingKey tree key := by
  have regular := (completed_filled wellFormed decoded).regular
  simp only [AgreeingKey]
  match path : getKeyAsPath key with
  | [] =>
      have found := run_getArgumentWithPath platform regular key
      rw [path] at found
      exact iff_of_false (fun agree => not_returns_of_undefined found agree.returns.1) id
  | [name] => exact agree_component regular path
  | name :: next :: rest => exact agree_components regular path

def nestedSample : Json :=
  .object [(text "stats", .object [(text "score", .numberUnsigned 1)])]

def nestedSampleTree : EventArgs :=
  .mk [(text "stats", scalarArgument (text "stats") .args (.eventArgs
    (.mk [(text "score", scalarArgument (text "score") .int32 (.int32 1))])))]

theorem walkersAgree_iff_nestedSample :
    WalkersAgree .x64 nestedSampleTree (text "stats/score") ↔
      AgreeingKey nestedSampleTree (text "stats/score") :=
  walkersAgree_iff .x64 nestedSample nestedSampleTree (text "stats/score") (by decide) rfl

theorem nestedSample_disagrees : ¬ ∀ platform json tree key, json.WellFormed →
    (∀ value ∈ json.subvalues, ∀ name ∈ value.memberNames, PlainName name) →
    ofJson platform json = .ok tree → WalkersAgree platform tree key := by
  intro agree
  have agreed := agree .x64 nestedSample nestedSampleTree (text "stats/score") (by decide)
    (by decide) rfl
  have path : PlainPath [text "stats", text "score"] (text "stats/score") :=
    ⟨by decide, by decide, by decide⟩
  obtain ⟨after, contains⟩ := agreed.contains _ path
  have missed : (containsKey .x64 (text "stats/score")).run nestedSampleTree =
      .ok false nestedSampleTree := by rfl
  rw [missed] at contains
  have stored : nestedSampleTree.storesChain [text "stats", text "score"] = true := by rfl
  simp [stored] at contains

end SocketEvents
