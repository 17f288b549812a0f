import SocketEvents.StoredNumbers

/-!
The fields of the arguments a decoded tree holds. The check before an insertion reads the name
as a path and the insertion uses it as it is, so an argument is left half initialised under a
name that a separator alone tells from an earlier one.
-/

namespace SocketEvents

open Execution Json

/-- At every depth, an argument carries the key it is stored under, and its fields agree. -/
def EventArgs.Represented (tree : EventArgs) : Prop :=
  ∀ ptr argument, tree.argumentAt ptr = some argument →
    argument.key = ptr.key ∧ argument.Consistent

/-- A setter stores the value under the name of an earlier argument and a separator. -/
def Shadowed (front : List (CString × Json)) (key : CString) (value : Json) : Prop :=
  value.isStored = true ∧ ∃ name earlier, key = name ++ [separator] ∧ Component name ∧
    (name, earlier) ∈ front ∧ earlier.isKept = true

/-- In no object that is decoded, a member takes the name of another and a separator. -/
def Json.Unshadowed (json : Json) : Prop :=
  ∀ names members, json.valueAt names = some (.object members) →
    ∀ key value, (key, value) ∈ members → ¬ Shadowed members key value

def Argument.unkeyed (argument : Argument EventArgs) : Argument EventArgs :=
  { argument with key := [], isArray := none }

section
variable {platform : Platform} {container : List (CString × Json)} {key : CString}
  {argument : Argument EventArgs}

theorem memberArgument_sound {value : Json}
    (stored : memberArgument platform (.object container) key value = some argument) :
    argument.key = key ∧ argument.Consistent := by
  have scalar : ∀ {type any}, any.scalarType = some type →
      scalarArgument key type any = argument → argument.key = key ∧ argument.Consistent :=
    fun typed same => same ▸ ⟨rfl, scalarArgument_consistent key typed⟩
  cases value with
  | null => simp [memberArgument] at stored
  | string value => exact scalar rfl (Option.some.inj stored)
  | boolean value => exact scalar rfl (Option.some.inj stored)
  | numberInteger value => exact scalar rfl (Option.some.inj stored)
  | numberUnsigned value => exact scalar rfl (Option.some.inj stored)
  | numberFloat value => exact scalar rfl (Option.some.inj stored)
  | object members =>
      simp only [memberArgument, Option.map_eq_some_iff] at stored
      obtain ⟨sub, _, same⟩ := stored
      exact scalar rfl same
  | array elements =>
      cases elements with
      | nil => simp [memberArgument] at stored
      | cons first rest =>
          rcases arrayArgument_built (arrayArgument_of_member stored) with
            ⟨_, rfl⟩ | ⟨kind, _, _, built⟩
          · exact ⟨rfl, (storedArray_named key).consistent⟩
          · exact ⟨built.keyed, .array kind.tag built.typed built.isArray built.wrapped
              built.allocated⟩

end

inductive Recorded (platform : Platform) (json : Json) (tree : EventArgs)
    (front : List (CString × Json)) : CString × Json → Prop
  | left (key : CString) (value : Json) : value.isKept = false → tree.find key = none →
      Recorded platform json tree front (key, value)
  | kept (key : CString) (value : Json) (argument : Argument EventArgs) :
      value.isKept = true → memberArgument platform json key value = some argument →
      ¬ Shadowed front key value → tree.find key = some argument →
      Recorded platform json tree front (key, value)
  | shadowed (key : CString) (value : Json) (argument : Argument EventArgs) :
      value.isKept = true → memberArgument platform json key value = some argument →
      Shadowed front key value → tree.find key = some argument.unkeyed →
      Recorded platform json tree front (key, value)

structure Recording (platform : Platform) (json : Json) (before : List (CString × Json))
    (tree : EventArgs) : Prop where
  filled : Filled platform json before tree
  entries : Throughout (Recorded platform json tree) before

section
variable {platform : Platform} {json : Json} {before : List (CString × Json)}
  {tree after : EventArgs} {key : CString} {value : Json}

theorem Recorded.frame {front : List (CString × Json)} {entry : CString × Json}
    (recorded : Recorded platform json tree front entry)
    (same : after.find entry.1 = tree.find entry.1) :
    Recorded platform json after front entry := by
  cases recorded with
  | left key value unkept absent => exact .left key value unkept (same.trans absent)
  | kept key value argument kept built clear found =>
      exact .kept key value argument kept built clear (same.trans found)
  | shadowed key value argument kept built covered found =>
      exact .shadowed key value argument kept built covered (same.trans found)

theorem Recorded.isSome {front : List (CString × Json)} {entry : CString × Json}
    (recorded : Recorded platform json tree front entry) :
    (tree.find entry.1).isSome = entry.2.isKept := by
  cases recorded with
  | left key value unkept absent => simp [unkept, absent]
  | kept key value argument kept built clear found => simp [kept, found]
  | shadowed key value argument kept built covered found => simp [kept, found]

theorem Recording.entry (recording : Recording platform json before tree)
    (member : (key, value) ∈ before) :
    ∃ front back, before = front ++ (key, value) :: back ∧
      Recorded platform json tree front (key, value) := by
  obtain ⟨front, back, split⟩ := List.append_of_mem member
  exact ⟨front, back, split, recording.entries front (key, value) back split⟩

theorem shadowed_iff (recording : Recording platform json before tree)
    (absent : key ∉ before.map Prod.fst) (stored : value.isStored = true) {name : CString}
    (single : getKeyAsPath key = [name]) :
    Shadowed before key value ↔ (tree.find name).isSome = true := by
  obtain ⟨component, spelled⟩ := (getKeyAsPath_single_iff key name).mp single
  constructor
  · rintro ⟨_, other, earlier, same, otherComponent, member, kept⟩
    have path := (getKeyAsPath_single_iff key other).mpr ⟨otherComponent, .inr same⟩
    simp only [single, List.cons.injEq, and_true] at path
    subst path
    obtain ⟨front, back, _, here⟩ := recording.entry member
    exact here.isSome.trans kept
  · intro taken
    obtain ⟨argument, found⟩ := Option.isSome_iff_exists.mp taken
    obtain ⟨⟨_, earlier⟩, member, rfl⟩ :=
      List.mem_map.mp (recording.filled.keys name argument found)
    obtain ⟨front, back, _, here⟩ := recording.entry member
    rcases spelled with same | longer
    · exact (absent (same ▸ List.mem_map_of_mem (f := Prod.fst) member)).elim
    · exact ⟨stored, _, earlier, longer, component, member, here.isSome.symm.trans taken⟩

theorem setArgument_recorded (recording : Recording platform json before tree)
    (absent : key ∉ before.map Prod.fst) (stored : value.isStored = true)
    (kept : value.isKept = true) {type : EventArgumentType} {any : AnyValue EventArgs}
    (built : memberArgument platform json key value = some (scalarArgument key type any))
    (ran : (setArgument platform type any key).run tree = .ok () after) :
    (∀ other, other ≠ key → after.find other = tree.find other) ∧
      Recorded platform json after before (key, value) := by
  have frame : ∀ argument other, other ≠ key →
      (tree.insert key argument).find other = tree.find other := by
    intro argument other different
    rw [EventArgs.find_insert, if_neg different]
  have here : ∀ argument, (tree.insert key argument).find key = some argument := by
    intro argument
    rw [EventArgs.find_insert, if_pos rfl]
  rw [run_setArgument platform recording.filled.regular
    (recording.filled.fresh absent)] at ran
  cases path : getKeyAsPath key with
  | nil => simp [path] at ran
  | cons name others =>
      cases others with
      | nil =>
          have taken := shadowed_iff recording absent stored path
          simp only [path, EStateM.Result.ok.injEq, true_and] at ran
          subst ran
          refine ⟨frame _, ?_⟩
          by_cases covered : Shadowed before key value
          · refine .shadowed key value _ kept built covered ?_
            rw [here, if_pos (taken.mp covered)]
            rfl
          · refine .kept key value _ kept built covered ?_
            rw [here, if_neg (mt taken.mpr covered)]
      | cons next rest =>
          simp only [path] at ran
          split at ran
          · simp only [EStateM.Result.ok.injEq, true_and] at ran
            subst ran
            refine ⟨frame _, .kept key value _ kept built ?_ (here _)⟩
            rintro ⟨_, other, _, same, component, _, _⟩
            have single := (getKeyAsPath_single_iff key other).mpr ⟨component, .inr same⟩
            simp [path] at single
          · simp at ran

theorem addEntry_recorded (recording : Recording platform json before tree)
    (absent : key ∉ before.map Prod.fst)
    (ran : (addEntry platform json (key, value)).run tree = .ok () after) :
    (∀ other, other ≠ key → after.find other = tree.find other) ∧
      Recorded platform json after before (key, value) := by
  have set : ∀ {type any}, value.isStored = true → value.isKept = true →
      memberArgument platform json key value = some (scalarArgument key type any) →
      (setArgument platform type any key).run tree = .ok () after → _ :=
    fun stored kept built ran => setArgument_recorded recording absent stored kept built ran
  cases value with
  | null =>
      simp only [addEntry, addItem, EStateM.run_pure, EStateM.Result.ok.injEq, true_and] at ran
      subst ran
      exact ⟨fun _ _ => rfl, .left key _ rfl (recording.filled.fresh absent)⟩
  | string value => exact set rfl rfl rfl ran
  | boolean value => exact set rfl rfl rfl ran
  | numberInteger value => exact set rfl rfl rfl ran
  | numberUnsigned value => exact set rfl rfl rfl ran
  | numberFloat value => exact set rfl rfl rfl ran
  | object members =>
      cases decoded : ofJson platform (.object members) with
      | error fault => simp [addEntry, addItem, decoded] at ran
      | ok sub =>
          simp only [addEntry, addItem, decoded, EStateM.run_bind, run_liftFault_ok] at ran
          exact set rfl rfl (object_argument json key decoded) ran
  | array elements =>
      cases elements with
      | nil =>
          simp only [addEntry, addItem, EStateM.run_pure, EStateM.Result.ok.injEq, true_and]
            at ran
          subst ran
          exact ⟨fun _ _ => rfl, .left key _ rfl (recording.filled.fresh absent)⟩
      | cons first rest =>
          cases result : arrayArgument json (json.children.map (ofJson platform)) key first
              (.array (first :: rest)) with
          | error fault => simp [addEntry, addItem, result] at ran
          | ok argument =>
              have inserted : tree.insert key argument = after := by
                simpa [addEntry, addItem, result, writeArgument, EventArgs.insertAt] using ran
              subst inserted
              refine ⟨?_, .kept key _ argument rfl ?_ ?_ ?_⟩
              · intro other different
                rw [EventArgs.find_insert, if_neg different]
              · simp [memberArgument, result, Except.toOption]
              · rintro ⟨stored, _⟩
                simp [isStored] at stored
              · rw [EventArgs.find_insert, if_pos rfl]

theorem Recording.step (recording : Recording platform json before tree)
    (graded : ∀ child ∈ json.children, Graded platform child)
    (absent : key ∉ before.map Prod.fst)
    (inside : ∀ members, value = .object members → value ∈ json.children)
    (ran : (addEntry platform json (key, value)).run tree = .ok () after) :
    Recording platform json (before ++ [(key, value)]) after := by
  have settled := addEntry_settled graded recording.filled absent inside
  rw [ran] at settled
  obtain ⟨frame, last⟩ := addEntry_recorded recording absent ran
  refine ⟨(settled.of_ok rfl).1, Throughout.append ?_ last⟩
  intro front entry back split
  apply (recording.entries front entry back split).frame
  apply frame
  rintro rfl
  exact absent (by simp [split])

end

theorem ofJson_recording {platform : Platform} {json : Json} {tree : EventArgs}
    (wellFormed : json.WellFormed) (decoded : ofJson platform json = .ok tree) :
    Recording platform json json.items tree := by
  have graded : ∀ child ∈ json.children, Graded platform child := fun child member =>
    (ofJson_settled platform child (wellFormed.child member)).imp fun _ filled => filled.regular
  have distinct := items_distinct wellFormed
  have returned : (json.items.forM (addEntry platform json)).run .empty = .ok () tree := by
    rw [ofJson_eq] at decoded
    generalize (json.items.forM (addEntry platform json)).run .empty = result at decoded
    cases result <;> simp_all [finalState]
  refine forM_ok ?_ ⟨filled_nil, throughout_nil⟩ returned
  rintro front ⟨key, value⟩ back state next split recording ran
  rw [split, List.map_append, List.map_cons, List.nodup_append] at distinct
  have absent : key ∉ front.map Prod.fst :=
    fun member => distinct.2.2 _ member _ (by simp) rfl
  have present : (key, value) ∈ json.items := by simp [split]
  exact recording.step graded absent (fun members => Json.object_mem_children present) ran

theorem lt_append_separator (name : CString) : name < name ++ [separator] := by
  have longer : name ++ [] < name ++ [separator] :=
    List.append_left_lt (List.nil_lt_cons separator [])
  simpa using longer

theorem shadowed_front {members front back : List (CString × Json)} {key : CString} {value : Json}
    (ordered : (members.map Prod.fst).Pairwise (· < ·))
    (split : members = front ++ (key, value) :: back) :
    Shadowed front key value ↔ Shadowed members key value := by
  constructor
  · rintro ⟨stored, name, earlier, same, component, member, kept⟩
    exact ⟨stored, name, earlier, same, component, by simp [split, member], kept⟩
  · rintro ⟨stored, name, earlier, same, component, member, kept⟩
    refine ⟨stored, name, earlier, same, component, ?_, kept⟩
    have below : name < key := same ▸ lt_append_separator name
    rw [split] at member
    rcases List.mem_append.mp member with inFront | behind
    · exact inFront
    · exfalso
      rcases List.mem_cons.mp behind with here | inBack
      · simp only [Prod.mk.injEq] at here
        exact List.lt_irrefl _ (here.1 ▸ below)
      · rw [split, List.map_append, List.map_cons, List.pairwise_append] at ordered
        have above := (List.pairwise_cons.mp ordered.2.1).1 name
          (List.mem_map_of_mem (f := Prod.fst) inBack)
        exact List.lt_asymm below above

theorem child_eq_some_iff {args sub : EventArgs} {step : CString × Option Nat} :
    args.child step = some sub ↔ ∃ argument, args.find step.1 = some argument ∧
      argument.value.element step.2 = some (.eventArgs sub) := by
  constructor
  · intro below
    obtain ⟨argument, found, selected⟩ := Option.bind_eq_some_iff.mp below
    refine ⟨argument, found, ?_⟩
    split at selected
    · rename_i inner same
      exact Option.some.inj selected ▸ same
    · simp at selected
  · rintro ⟨argument, found, selected⟩
    exact child_of_element found selected

theorem represented_unfold (tree : EventArgs) :
    tree.Represented ↔
      (∀ key argument, tree.find key = some argument →
        argument.key = key ∧ argument.Consistent) ∧
      ∀ step sub, tree.child step = some sub → sub.Represented := by
  constructor
  · intro represented
    refine ⟨fun key argument found => represented ⟨[], key⟩ argument found, ?_⟩
    rintro step sub below ⟨args, key⟩ argument stored
    apply represented ⟨step :: args, key⟩ argument
    simpa [EventArgs.argumentAt, EventArgs.deref, below] using stored
  · rintro ⟨entries, children⟩ ⟨args, key⟩ argument stored
    cases args with
    | nil => exact entries key argument stored
    | cons step rest =>
        obtain ⟨holder, reached, found⟩ := Option.bind_eq_some_iff.mp stored
        obtain ⟨sub, below, reached⟩ := Option.bind_eq_some_iff.mp reached
        apply children step sub below ⟨rest, key⟩ argument
        simp only [EventArgs.argumentAt, reached, Option.bind_some]
        exact found

theorem unshadowed_unfold (members : List (CString × Json)) :
    (Json.object members).Unshadowed ↔
      (∀ key value, (key, value) ∈ members → ¬ Shadowed members key value) ∧
      ∀ key inner, AssocMap.find key members = some (.object inner) →
        (Json.object inner).Unshadowed := by
  constructor
  · intro unshadowed
    refine ⟨unshadowed [] members rfl, ?_⟩
    intro key inner found names container leads
    exact unshadowed (key :: names) container (by simp [valueAt, found, leads])
  · rintro ⟨here, below⟩ names container leads
    cases names with
    | nil =>
        simp only [valueAt, Option.some.injEq, object.injEq] at leads
        exact leads ▸ here
    | cons name rest =>
        simp only [valueAt, Option.bind_eq_some_iff] at leads
        obtain ⟨value, found, leads⟩ := leads
        cases value with
        | object inner => exact below name inner found rest container leads
        | _ => cases rest <;> simp [valueAt] at leads

section
variable {platform : Platform} {members : List (CString × Json)} {tree : EventArgs}
  {key : CString} {value : Json}

theorem Recording.member (recording : Recording platform (.object members) members tree)
    (wellFormed : (Json.object members).WellFormed) (present : (key, value) ∈ members)
    (kept : value.isKept = true) :
    ∃ original argument, memberArgument platform (.object members) key value = some original ∧
      tree.find key = some argument ∧ argument.value = original.value ∧
      (Shadowed members key value → argument.key = []) ∧
      (¬ Shadowed members key value → argument = original) := by
  obtain ⟨front, back, split, recorded⟩ := recording.entry present
  have same := shadowed_front wellFormed.ordered split
  cases recorded with
  | left _ _ unkept _ => simp [kept] at unkept
  | kept _ _ original _ built clear found =>
      exact ⟨original, original, built, found, rfl, fun covered => (clear (same.mpr covered)).elim,
        fun _ => rfl⟩
  | shadowed _ _ original _ built covered found =>
      exact ⟨original, original.unkeyed, built, found, rfl, fun _ => rfl,
        fun clear => (clear (same.mp covered)).elim⟩

theorem Recording.found (recording : Recording platform (.object members) members tree)
    {argument : Argument EventArgs} (found : tree.find key = some argument) :
    ∃ value, (key, value) ∈ members ∧ value.isKept = true := by
  obtain ⟨⟨_, value⟩, member, rfl⟩ := List.mem_map.mp (recording.filled.keys key argument found)
  obtain ⟨front, back, _, here⟩ := recording.entry member
  exact ⟨value, member, by simp [← here.isSome, found]⟩

theorem represented_entries_iff (recording : Recording platform (.object members) members tree)
    (wellFormed : (Json.object members).WellFormed) :
    (∀ key argument, tree.find key = some argument →
        argument.key = key ∧ argument.Consistent) ↔
      ∀ key value, (key, value) ∈ members → ¬ Shadowed members key value := by
  constructor
  · intro entries key value present covered
    obtain ⟨stored, name, earlier, same, _⟩ := id covered
    have kept : value.isKept = true := by
      cases value <;> simp_all [isStored, isKept]
    obtain ⟨_, argument, _, found, _, blank, _⟩ := recording.member wellFormed present kept
    have keyed := (entries key argument found).1
    rw [blank covered, same] at keyed
    simp at keyed
  · intro clear key argument found
    obtain ⟨value, present, kept⟩ := recording.found found
    obtain ⟨original, other, built, here, _, _, whole⟩ :=
      recording.member wellFormed present kept
    have same : argument = original := by
      rw [here] at found
      exact Option.some.inj found ▸ whole (clear key value present)
    exact same ▸ memberArgument_sound built

theorem child_decoded_iff (recording : Recording platform (.object members) members tree)
    (wellFormed : (Json.object members).WellFormed) {element : Option Nat} {sub : EventArgs} :
    tree.child (key, element) = some sub ↔ element = none ∧ ∃ inner,
      AssocMap.find key members = some (.object inner) ∧
        ofJson platform (.object inner) = .ok sub := by
  rw [child_eq_some_iff]
  constructor
  · rintro ⟨argument, found, selected⟩
    obtain ⟨value, present, kept⟩ := recording.found found
    obtain ⟨original, other, built, here, value_eq, _⟩ :=
      recording.member wellFormed present kept
    rw [here, Option.some.injEq] at found
    rw [← found, value_eq] at selected
    obtain ⟨inner, rfl, none, decoded⟩ := (memberArgument_keptAs built).object selected
    exact ⟨none, inner, AssocMap.find_of_mem wellFormed.distinct present, decoded⟩
  · rintro ⟨rfl, inner, found, decoded⟩
    obtain ⟨original, argument, built, here, value_eq, _⟩ :=
      recording.member wellFormed (AssocMap.mem_of_find found) rfl
    rw [object_argument (.object members) key decoded, Option.some.injEq] at built
    exact ⟨argument, here, by rw [value_eq, ← built]; rfl⟩

end

theorem represented_iff (platform : Platform) (members : List (CString × Json))
    (tree : EventArgs) (wellFormed : (Json.object members).WellFormed)
    (decoded : ofJson platform (.object members) = .ok tree) :
    tree.Represented ↔ (Json.object members).Unshadowed := by
  induction whole : Json.object members using Json.induction generalizing members tree with
  | step json ih =>
      subst whole
      have recording : Recording platform (.object members) members tree :=
        ofJson_recording wellFormed decoded
      rw [represented_unfold, unshadowed_unfold, represented_entries_iff recording wellFormed]
      refine and_congr_right fun _ => ?_
      have below : ∀ {key inner sub}, AssocMap.find key members = some (.object inner) →
          ofJson platform (.object inner) = .ok sub →
          (sub.Represented ↔ (Json.object inner).Unshadowed) := by
        intro key inner sub found decoded
        have inside := child_of_find found
        exact ih (.object inner) inside inner sub (wellFormed.child inside) decoded rfl
      constructor
      · intro children key inner found
        obtain ⟨original, _, built, _⟩ :=
          recording.member wellFormed (AssocMap.mem_of_find found) rfl
        have keptAs := memberArgument_keptAs built
        generalize original.value = any at keptAs
        cases keptAs with
        | scalar _ _ storedAs =>
            cases storedAs with
            | object _ sub subDecoded =>
                have child := (child_decoded_iff recording wellFormed).mpr
                  ⟨rfl, inner, found, subDecoded⟩
                exact (below found subDecoded).mp (children _ _ child)
      · rintro children ⟨key, element⟩ sub child
        obtain ⟨_, inner, found, decoded⟩ := (child_decoded_iff recording wellFormed).mp child
        exact (below found decoded).mpr (children key inner found)

def unshadowedMembers : List (CString × Json) :=
  [(text "a", .numberUnsigned 1), (text "b", .object [])]

theorem represented_iff_unshadowed : ∃ tree,
    ofJson .x64 (.object unshadowedMembers) = .ok tree ∧
      (tree.Represented ↔ (Json.object unshadowedMembers).Unshadowed) :=
  ⟨_, rfl, represented_iff .x64 unshadowedMembers _ (by decide) rfl⟩

def shadowedMembers : List (CString × Json) :=
  [(text "a", .numberUnsigned 1), (text "a/", .numberUnsigned 2)]

/-- The second member is found under the path of the first, and `operator[]` creates it
without a key and without the array flag. -/
theorem shadowed_unkeyed : ¬ ∀ platform members tree, (Json.object members).WellFormed →
    ofJson platform (.object members) = .ok tree → tree.Represented := by
  intro all
  have represented := all .x64 shadowedMembers _ (by decide) rfl
  have keyed := (represented ⟨[], text "a/"⟩ (unkeyedArgument .int32 (.int32 2)) rfl).1
  simp [unkeyedArgument, text] at keyed

end SocketEvents
