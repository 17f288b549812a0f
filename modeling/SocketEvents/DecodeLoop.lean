import SocketEvents.DecodeVerdict

/-!
The constructor's loop: what each entry adds to the tree, and what the whole loop leaves in
it. Decoding is defined by the language exactly on the values without a hazard.
-/

namespace SocketEvents

open Execution Json

section
variable (platform : Platform) (json : Json)

def memberArgument (key : CString) : Json → Option (Argument EventArgs)
  | .null => none
  | .array [] => none
  | .array (first :: rest) =>
      (arrayArgument json (json.children.map (ofJson platform)) key first
        (.array (first :: rest))).toOption
  | .string value => some (scalarArgument key .string (.string value))
  | .boolean value => some (scalarArgument key .bool (.bool value))
  | .numberInteger value => some (scalarArgument key .int32 (.int32 value.toInt32))
  | .numberUnsigned value => some (scalarArgument key .int32 (.int32 value.toUInt32.toInt32))
  | .numberFloat value => some (scalarArgument key .float (.float value.toFloat32))
  | .object members =>
      (ofJson platform (.object members)).toOption.map fun sub =>
        scalarArgument key .args (.eventArgs sub)

structure Filled (before : List (CString × Json)) (tree : EventArgs) : Prop where
  regular : tree.Regular
  keys : ∀ key argument, tree.find key = some argument → key ∈ before.map Prod.fst
  objects : ∀ name, Component name →
    (tree.holdsObject name = true ↔ ∃ members, (name, Json.object members) ∈ before)
  contents : ∀ name, Component name →
    tree.find name = (AssocMap.find name before).bind (memberArgument platform json name)

end

section
variable {platform : Platform} {json : Json} {before : List (CString × Json)} {tree : EventArgs}

theorem filled_nil : Filled platform json [] .empty := by
  refine ⟨EventArgs.empty_regular, ?_, ?_, ?_⟩
  · intro key argument found
    simp [EventArgs.find, EventArgs.empty, EventArgs.argumentMap] at found
  · intro name _
    simp [EventArgs.holdsObject, EventArgs.find, EventArgs.empty, EventArgs.argumentMap]
  · intro name _
    simp [EventArgs.find, EventArgs.empty, EventArgs.argumentMap]

theorem Filled.fresh (filled : Filled platform json before tree) {key : CString}
    (absent : key ∉ before.map Prod.fst) : tree.find key = none := by
  cases found : tree.find key with
  | none => rfl
  | some argument => exact (absent (filled.keys key argument found)).elim

theorem find_append_fresh {key name : CString} {value : Json}
    (absent : key ∉ before.map Prod.fst) :
    AssocMap.find name (before ++ [(key, value)]) =
      if name = key then some value else AssocMap.find name before := by
  rw [AssocMap.find_append]
  by_cases same : name = key
  · subst same
    simp [AssocMap.find_eq_none_iff.mpr absent, AssocMap.find]
  · simp [same, AssocMap.find, Ne.symm same]

theorem Filled.skip (filled : Filled platform json before tree) {key : CString} {value : Json}
    (absent : key ∉ before.map Prod.fst) (left : memberArgument platform json key value = none)
    (notObject : ∀ members, value ≠ .object members) :
    Filled platform json (before ++ [(key, value)]) tree := by
  refine ⟨filled.regular, ?_, ?_, ?_⟩
  · intro other argument found
    simp [filled.keys other argument found]
  · intro name component
    rw [filled.objects name component]
    have other : ∀ members, (name, Json.object members) ≠ (key, value) := by
      intro members same
      exact notObject members (Prod.mk.inj same).2.symm
    simp [other]
  · intro name component
    rw [filled.contents name component, find_append_fresh absent]
    by_cases same : name = key
    · subst same
      simp [AssocMap.find_eq_none_iff.mpr absent, left]
    · simp [same]

theorem Filled.insert (filled : Filled platform json before tree) {key : CString} {value : Json}
    {argument : Argument EventArgs} (absent : key ∉ before.map Prod.fst)
    (good : Component key → argument.Consistent ∧ argument.Below ∧
      memberArgument platform json key value = some argument ∧
      (argument.value.scalarType = some .args ↔ ∃ members, value = .object members)) :
    Filled platform json (before ++ [(key, value)]) (tree.insert key argument) := by
  refine ⟨filled.regular.insert fun component => ⟨(good component).1, (good component).2.1⟩,
    ?_, ?_, ?_⟩
  · intro other stored found
    rw [EventArgs.find_insert] at found
    by_cases same : other = key
    · simp [same]
    · simp only [same, if_false] at found
      simp [filled.keys other stored found]
  · intro name component
    by_cases same : name = key
    · subst same
      have none_before : ∀ members, (name, Json.object members) ∉ before :=
        fun members member => absent (List.mem_map.mpr ⟨_, member, rfl⟩)
      have held : (tree.insert name argument).holdsObject name = true ↔
          argument.value.scalarType = some .args := by
        simp [EventArgs.holdsObject, EventArgs.find_insert]
      rw [held, (good component).2.2.2]
      simp only [List.mem_append, none_before, false_or, List.mem_singleton, Prod.mk.injEq,
        true_and]
      exact exists_congr fun members => eq_comm
    · have kept : (tree.insert key argument).holdsObject name = tree.holdsObject name := by
        simp [EventArgs.holdsObject, EventArgs.find_insert, same]
      rw [kept, filled.objects name component]
      simp [same]
  · intro name component
    rw [EventArgs.find_insert, find_append_fresh absent]
    by_cases same : name = key
    · subst same
      simp [(good component).2.2.1]
    · simp [same, filled.contents name component]

theorem scalarArgument_consistent (key : CString) {type : EventArgumentType}
    {value : AnyValue EventArgs} (typed : value.scalarType = some type) :
    (scalarArgument key type value).Consistent :=
  .scalar type rfl rfl typed rfl

theorem setArgument_settled (filled : Filled platform json before tree) {key : CString}
    {value : Json} (absent : key ∉ before.map Prod.fst) {type : EventArgumentType}
    {any : AnyValue EventArgs} (typed : any.scalarType = some type)
    (below : (scalarArgument key type any).Below)
    (stored : memberArgument platform json key value = some (scalarArgument key type any))
    (object : type = .args ↔ ∃ members, value = .object members) :
    Settled (finalState ((setArgument platform type any key).run tree))
      (Filled platform json (before ++ [(key, value)])) StdException (SafeName before key)
      (¬ SafeName before key) := by
  have fresh := filled.fresh absent
  have inserted : Filled platform json (before ++ [(key, value)])
      (tree.insert key (scalarArgument key type any)) := by
    refine filled.insert absent fun _ =>
      ⟨scalarArgument_consistent key typed, below, stored, ?_⟩
    rw [← object]
    simp [scalarArgument, typed]
  have result := run_setArgument platform filled.regular fresh type any
  have components := getKeyAsPath_components key
  simp only [SafeName]
  cases path : getKeyAsPath key with
  | nil =>
      rw [result, path]
      exact .crashed .emptyPath rfl (by simp) (by simp)
  | cons name others =>
      rw [result, path]
      cases others with
      | nil =>
          refine .returned _ rfl ?_ trivial (by simp)
          by_cases taken : (tree.find name).isSome = true
          · simp only [taken, if_true]
            refine filled.insert absent fun component => ?_
            -- a component is its own path, and its entry is fresh
            have same : name = key := by simpa [component.getKeyAsPath] using path.symm
            rw [same, fresh] at taken
            simp at taken
          · simp only [taken]
            exact inserted
      | cons next rest =>
          have component : Component name := components name (by simp [path])
          have known := filled.objects name component
          by_cases isObject : tree.holdsObject name = true
          · simp only [isObject, if_true]
            have safe := known.mp isObject
            exact .returned _ rfl inserted safe (not_not_intro safe)
          · simp only [isObject]
            have unsafeName := mt known.mpr isObject
            exact .crashed .nullEventArgs rfl unsafeName unsafeName

theorem below_of_scalar {key : CString} {type : EventArgumentType} {any : AnyValue EventArgs}
    (typed : any.scalarType = some type) (plain : type ≠ .args) :
    (scalarArgument key type any).Below := by
  intro element sub selected
  cases any <;> cases element <;>
    simp_all [scalarArgument, AnyValue.element, AnyValue.scalarType]

theorem below_of_object {key : CString} {sub : EventArgs} (regular : sub.Regular) :
    (scalarArgument key .args (.eventArgs sub)).Below := by
  rintro (_ | index) other selected
  · simp only [scalarArgument, AnyValue.element, Option.some.injEq, AnyValue.eventArgs.injEq]
      at selected
    exact selected ▸ regular
  · simp [scalarArgument, AnyValue.element] at selected

theorem object_argument (json : Json) (key : CString) {members : List (CString × Json)}
    {sub : EventArgs} (decoded : ofJson platform (.object members) = .ok sub) :
    memberArgument platform json key (.object members) =
      some (scalarArgument key .args (.eventArgs sub)) := by
  simp [memberArgument, decoded, Except.toOption]

theorem scalarEntry_settled (filled : Filled platform json before tree) {key : CString}
    (absent : key ∉ before.map Prod.fst) {value : Json} {type : EventArgumentType}
    {any : AnyValue EventArgs} (stored : value.isStored = true)
    (object : ∀ members, value ≠ .object members) (typed : any.scalarType = some type)
    (plain : type ≠ .args)
    (kept : memberArgument platform json key value = some (scalarArgument key type any)) :
    Settled (finalState ((setArgument platform type any key).run tree))
      (Filled platform json (before ++ [(key, value)])) StdException
      (EntryCompletes json before (key, value)) (EntryHazard json before (key, value)) := by
  have notNested : value.holdsObjects = false := by
    cases value <;> simp_all [isStored, holdsObjects]
  have converts : value.elementsConvert = true := by
    cases value <;> simp_all [isStored, elementsConvert]
  have settled := setArgument_settled filled absent typed (below_of_scalar typed plain) kept
    (by simp [plain, object])
  refine settled.congr ⟨fun entry => entry.name stored, fun safe => ⟨fun _ => safe, converts,
    fun members same => (object members same).elim, by simp [notNested]⟩⟩ ⟨?_, fun bad =>
      .name key value stored (fun members same => (object members same).elim) bad⟩
  intro hazard
  cases hazard with
  | name _ _ _ _ bad => exact bad
  | inObject _ members _ => exact (object members rfl).elim
  | inElements _ _ _ _ nested _ => simp [notNested] at nested

/-- An array is written under its raw name, so no name is unsafe for it. -/
theorem arrayEntry_settled (graded : ∀ child ∈ json.children, Graded platform child)
    (filled : Filled platform json before tree) {key : CString}
    (absent : key ∉ before.map Prod.fst) (first : Json) (rest : List Json) :
    Settled (finalState ((addEntry platform json (key, .array (first :: rest))).run tree))
      (Filled platform json (before ++ [(key, .array (first :: rest))])) StdException
      (EntryCompletes json before (key, .array (first :: rest)))
      (EntryHazard json before (key, .array (first :: rest))) := by
  have settled := arrayArgument_settled graded key first rest before
  cases settled with
  | returned argument result good completes safe =>
      refine .returned (tree.insert key argument) ?_ (filled.insert absent fun _ =>
        ⟨good.consistent, good.below, ?_, by simp [good.notObject]⟩) completes safe
      · simp [addEntry, addItem, result, writeArgument, EventArgs.insertAt, finalState]
      · simp [memberArgument, result, Except.toOption]
  | threw exception result std fails safe =>
      refine .threw exception ?_ std fails safe
      simp [addEntry, addItem, result, finalState]
  | crashed defect result fails reached =>
      refine .crashed defect ?_ fails reached
      simp [addEntry, addItem, result, finalState]

theorem objectEntry_settled {members : List (CString × Json)}
    (graded : Graded platform (.object members)) (filled : Filled platform json before tree)
    {key : CString} (absent : key ∉ before.map Prod.fst) :
    Settled (finalState ((addEntry platform json (key, .object members)).run tree))
      (Filled platform json (before ++ [(key, .object members)])) StdException
      (EntryCompletes json before (key, .object members))
      (EntryHazard json before (key, .object members)) := by
  have hazardous : EntryHazard json before (key, .object members) →
      ¬ SafeName before key ∧ Completes (.object members) ∨ Hazard (.object members) := by
    intro hazard
    cases hazard with
    | name _ _ _ complete bad => exact .inl ⟨bad, complete members rfl⟩
    | inObject _ _ inner => exact .inr inner
    | inElements _ _ _ _ nested _ => simp [holdsObjects] at nested
  cases graded with
  | returned sub result regular completes safe =>
      have settled := setArgument_settled filled absent rfl (below_of_object regular)
        (object_argument json key result) (by simp)
      have ran : (addEntry platform json (key, .object members)).run tree =
          (setArgument platform .args (.eventArgs sub) key).run tree := by
        simp [addEntry, addItem, result, setEventArgs]
      rw [ran]
      refine settled.congr ⟨fun entry => entry.name rfl, fun named => ⟨fun _ => named, rfl,
        fun _ same => same ▸ completes, by simp [holdsObjects]⟩⟩ ⟨fun hazard => ?_,
          fun bad => .name key _ rfl (fun _ same => same ▸ completes) bad⟩
      exact (hazardous hazard).elim (fun both => both.1) (fun inner => (safe inner).elim)
  | threw exception result std fails safe =>
      refine .threw exception ?_ std (fun entry => fails (entry.object members rfl))
        (fun hazard => (hazardous hazard).elim (fun both => fails both.2) safe)
      simp [addEntry, addItem, result, finalState]
  | crashed defect result fails reached =>
      refine .crashed defect ?_ (fun entry => fails (entry.object members rfl))
        (.inObject key members reached)
      simp [addEntry, addItem, result, finalState]

theorem addEntry_settled (graded : ∀ child ∈ json.children, Graded platform child)
    (filled : Filled platform json before tree) {key : CString} {value : Json}
    (absent : key ∉ before.map Prod.fst)
    (inside : ∀ members, value = .object members → value ∈ json.children) :
    Settled (finalState ((addEntry platform json (key, value)).run tree))
      (Filled platform json (before ++ [(key, value)])) StdException
      (EntryCompletes json before (key, value)) (EntryHazard json before (key, value)) := by
  cases value with
  | null =>
      refine .returned tree rfl (filled.skip absent rfl (by simp))
        ⟨by simp [isStored], rfl, by simp, by simp [holdsObjects]⟩ ?_
      intro hazard
      cases hazard with
      | name _ _ stored _ _ => simp [isStored] at stored
      | inElements _ _ _ _ nested _ => simp [holdsObjects] at nested
  | array elements =>
      cases elements with
      | nil =>
          exact .returned tree rfl (filled.skip absent rfl (by simp))
            (entryCompletes_of_array rfl rfl) (not_entryHazard_of_array rfl)
      | cons first rest => exact arrayEntry_settled graded filled absent first rest
  | string value =>
      exact scalarEntry_settled filled absent rfl (by simp) rfl (by simp) rfl
  | boolean value =>
      exact scalarEntry_settled filled absent rfl (by simp) rfl (by simp) rfl
  | numberInteger value =>
      exact scalarEntry_settled filled absent rfl (by simp) rfl (by simp) rfl
  | numberUnsigned value =>
      exact scalarEntry_settled filled absent rfl (by simp) rfl (by simp) rfl
  | numberFloat value =>
      exact scalarEntry_settled filled absent rfl (by simp) rfl (by simp) rfl
  | object members => exact objectEntry_settled (graded _ (inside members rfl)) filled absent

end

theorem entry_exclusive {json : Json} {before : List (CString × Json)} {entry : CString × Json}
    (exclusive : ∀ child ∈ json.children, Completes child → ¬ Hazard child)
    (inside : ∀ members, entry.2 = .object members → entry.2 ∈ json.children)
    (completes : EntryCompletes json before entry) : ¬ EntryHazard json before entry := by
  intro hazard
  cases hazard with
  | name key value stored _ bad => exact bad (completes.name stored)
  | inObject key members inner =>
      exact exclusive _ (inside members rfl) (completes.object members rfl) inner
  | inElements key value elements same nested reached =>
      obtain ⟨front, element, back, split, _, inner⟩ := reached
      subst same
      have member : element ∈ elements := by simp [split]
      exact exclusive element member ((completes.objects nested).2 element member) inner

theorem ofJson_settled (platform : Platform) (json : Json) (wellFormed : json.WellFormed) :
    Settled (ofJson platform json) (Filled platform json json.items) StdException
      (Completes json) (Hazard json) := by
  induction json using Json.induction with
  | step json ih =>
      have graded : ∀ child ∈ json.children, Graded platform child := fun child member =>
        (ih child member (wellFormed.child member)).imp fun tree filled => filled.regular
      have distinct := items_distinct wellFormed
      rw [completes_iff, hazard_iff, ofJson_eq]
      refine forM_settled ?_ ?_ filled_nil
      · intro front entry back tree split done filled
        rw [split, List.map_append, List.map_cons, List.nodup_append] at distinct
        have absent : entry.1 ∉ front.map Prod.fst :=
          fun member => distinct.2.2 _ member _ (by simp) rfl
        exact addEntry_settled graded filled absent fun members =>
          Json.object_mem_children (by simp [split])
      · intro front entry back split completes hazard
        exact entry_exclusive (fun child member => (graded child member).exclusive)
          (fun members => Json.object_mem_children (by simp [split])) completes hazard

def DecodesSafely (platform : Platform) (json : Json) : Prop :=
  (∃ tree, ofJson platform json = .ok tree) ∨
    ∃ exception, ofJson platform json = .error (.thrown exception) ∧ StdException exception

theorem decodesSafely_iff (platform : Platform) (json : Json) (wellFormed : json.WellFormed) :
    DecodesSafely platform json ↔ ¬ Hazard json :=
  (ofJson_settled platform json wellFormed).defined_iff

theorem decodesSafely_iff_emptyName :
    DecodesSafely .x64 (.object [([], .numberUnsigned 1)]) ↔
      ¬ Hazard (.object [([], .numberUnsigned 1)]) :=
  decodesSafely_iff .x64 (.object [([], .numberUnsigned 1)]) (by decide)

/-- A member with the empty name makes `GetArgumentWithPath` index an empty path. -/
theorem emptyName_crashes : ¬ ∀ platform json, json.WellFormed → DecodesSafely platform json := by
  intro safe
  have crashed : ofJson .x64 (.object [([], .numberUnsigned 1)]) =
      .error (.undefined .emptyPath) := by rfl
  rcases safe .x64 (.object [([], .numberUnsigned 1)]) (by decide) with ⟨tree, completed⟩ |
    ⟨exception, threw, _⟩
  · simp [crashed] at completed
  · simp [crashed] at threw

end SocketEvents
