import SocketEvents.EventArgsLookup

/-!
The JSON constructor. What one setter and one member do to a regular tree, what the whole
loop leaves in it, and which values make it throw or run into undefined behaviour.
-/

namespace SocketEvents

open Execution

section
variable (platform : Platform)

theorem ofElements_eq (elements : List Json) :
    ofElements platform elements = elements.map (ofJson platform) := by
  induction elements with
  | nil => rfl
  | cons element rest ih => simp [ofElements, ih]

theorem ofMembers_eq (members : List (CString × Json)) :
    ofMembers platform members = (members.map Prod.snd).map (ofJson platform) := by
  induction members with
  | nil => rfl
  | cons entry rest ih => simp [ofMembers, ih]

def addEntry (json : Json) (entry : CString × Json) : Lookup Unit :=
  addItem platform json (json.children.map (ofJson platform))
    ⟨entry.1, entry.2, ofJson platform entry.2⟩

theorem zipWith_decoded (entries : List (CString × Json)) :
    List.zipWith (fun entry built => (⟨entry.1, entry.2, built⟩ : Item)) entries
        ((entries.map Prod.snd).map (ofJson platform)) =
      entries.map fun entry => ⟨entry.1, entry.2, ofJson platform entry.2⟩ := by
  induction entries with
  | nil => rfl
  | cons entry rest ih => simpa using ih

theorem forM_map {α β σ : Type} (f : α → β) (body : β → Exec Exception Defect σ Unit)
    (items : List α) : (items.map f).forM body = items.forM fun item => body (f item) := by
  induction items with
  | nil => rfl
  | cons item rest ih => simp

theorem ofJson_eq (json : Json) :
    ofJson platform json =
      finalState ((json.items.forM (addEntry platform json)).run .empty) := by
  cases json with
  | array elements =>
      have decoded := zipWith_decoded platform (Json.numberedFrom 0 elements)
      rw [Json.numberedFrom_snd] at decoded
      simp only [ofJson, construct, itemsWith, ofElements_eq, Json.items, decoded, forM_map]
      rfl
  | object members =>
      have decoded := zipWith_decoded platform members
      simp only [ofJson, construct, itemsWith, ofMembers_eq, Json.items, decoded, forM_map]
      rfl
  | null => rfl
  | string value => rfl
  | boolean value => rfl
  | numberInteger value => rfl
  | numberUnsigned value => rfl
  | numberFloat value => rfl

end

def scalarArgument (key : CString) (type : EventArgumentType) (value : AnyValue EventArgs) :
    Argument EventArgs :=
  { key, value, type := some type, isArray := some false, length := 0 }

def unkeyedArgument (type : EventArgumentType) (value : AnyValue EventArgs) :
    Argument EventArgs :=
  { key := [], value, type := some type, isArray := none, length := 0 }

theorem EventArgs.insert_insert (key : CString) (first second : Argument EventArgs)
    (args : EventArgs) : (args.insert key first).insert key second = args.insert key second := by
  simp [insert, argumentMap, AssocMap.insert_insert]

section
variable {platform : Platform} {tree : EventArgs}

theorem run_containsKey (platform : Platform) (regular : tree.Regular) (key : CString) :
    (containsKey platform key).run tree =
      (do return (← pathOutcome tree [] (getKeyAsPath key)).isSome : Lookup Bool).run tree := by
  have asked := run_getArgumentWithPathAt platform (EventArgs.deref_nil tree) regular
    (getKeyAsPath key) (getKeyAsPath_components key)
  simp only [containsKey, containsKeyAt_eq, EStateM.run_bind, asked]

theorem run_getOrAddArgument (platform : Platform) (regular : tree.Regular) {key : CString}
    (fresh : tree.find key = none) :
    (getOrAddArgument platform key).run tree =
      match getKeyAsPath key with
      | [] => .error (.undefined .emptyPath) tree
      | [name] => .ok ⟨[], key⟩ (tree.insert key
          (if (tree.find name).isSome then .unset else .named key))
      | name :: _ :: _ =>
          if tree.holdsObject name then .ok ⟨[], key⟩ (tree.insert key (.named key))
          else .error (.undefined .nullEventArgs) tree := by
  have asked := run_containsKey platform regular key
  cases path : getKeyAsPath key with
  | nil =>
      rw [path] at asked
      simp [getOrAddArgument, asked, pathOutcome]
  | cons name others =>
      rw [path] at asked
      cases others with
      | nil =>
          cases found : (tree.find name).isSome <;>
            simp [getOrAddArgument, asked, pathOutcome, found, argumentMapAt, writeArgument,
              readArgs, EventArgs.deref, EventArgs.insertAt, EventArgs.find_insert, fresh]
      | cons next rest =>
          cases object : tree.holdsObject name <;>
            simp [getOrAddArgument, asked, pathOutcome, object, argumentMapAt, writeArgument,
              readArgs, EventArgs.deref, EventArgs.insertAt, EventArgs.find_insert]

theorem run_setArgument (platform : Platform) (regular : tree.Regular) {key : CString}
    (fresh : tree.find key = none) (type : EventArgumentType) (value : AnyValue EventArgs) :
    (setArgument platform type value key).run tree =
      match getKeyAsPath key with
      | [] => .error (.undefined .emptyPath) tree
      | [name] => .ok () (tree.insert key
          (if (tree.find name).isSome then unkeyedArgument type value
            else scalarArgument key type value))
      | name :: _ :: _ =>
          if tree.holdsObject name then .ok () (tree.insert key (scalarArgument key type value))
          else .error (.undefined .nullEventArgs) tree := by
  have written : ∀ argument, (do
      writeArgument ⟨[], key⟩ { (← readArgument ⟨[], key⟩).clearValue with
        type := some type, value := value } : Lookup Unit).run (tree.insert key argument) =
      .ok () (tree.insert key { argument.clearValue with
        type := some type, value := value }) := by
    intro argument
    simp [readArgument, readArgs, EventArgs.deref, EventArgs.find_insert, writeArgument,
      EventArgs.insertAt, EventArgs.insert_insert]
  rw [setArgument, EStateM.run_bind, run_getOrAddArgument platform regular fresh]
  cases getKeyAsPath key with
  | nil => rfl
  | cons name others =>
      cases others with
      | nil =>
          simp only [written]
          cases (tree.find name).isSome <;> rfl
      | cons next rest =>
          by_cases object : tree.holdsObject name = true
          · simp only [object, if_true, written]
            rfl
          · simp [object]

end

def Argument.Below (argument : Argument EventArgs) : Prop :=
  ∀ element sub, argument.value.element element = some (.eventArgs sub) → sub.Regular

theorem EventArgs.Regular.insert {tree : EventArgs} {key : CString}
    {argument : Argument EventArgs} (regular : tree.Regular)
    (good : Component key → argument.Consistent ∧ argument.Below) :
    (tree.insert key argument).Regular := by
  constructor
  · intro name found component lookup
    rw [EventArgs.find_insert] at lookup
    split at lookup
    · rename_i same
      subst same
      exact Option.some.inj lookup ▸ (good component).1
    · exact regular.consistent component lookup
  · intro name element sub component below
    simp only [EventArgs.child, EventArgs.find_insert] at below
    split at below
    · rename_i same
      subst same
      simp only [Option.bind_some] at below
      split at below
      · rename_i inner selected
        simp only [Option.some.injEq] at below
        subst below
        exact (good component).2 element inner selected
      · simp at below
    · exact regular.child component below

theorem EventArgs.empty_regular : EventArgs.empty.Regular := by
  constructor
  · intro name argument _ found
    simp [EventArgs.find, EventArgs.empty, EventArgs.argumentMap] at found
  · intro name element sub _ below
    simp [EventArgs.child, EventArgs.find, EventArgs.empty, EventArgs.argumentMap] at below

end SocketEvents
