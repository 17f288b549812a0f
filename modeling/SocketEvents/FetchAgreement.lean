import SocketEvents.PathAgreement

/-!
A key of one component, fetched by path and through `operator[]`. The existence check splits
the key, the fetch after it does not, so they part on a key with a separator at its end.
-/

namespace SocketEvents

open Execution Json

structure FetchesAgree (platform : Platform) (tree : EventArgs) (key : CString) : Prop where
  argument : ∃ found, (getArgumentWithPath platform key).run tree = .ok found tree ∧
    (getArgument platform key).run tree = .ok found tree
  existing : Gives tree (containsKey platform key) true →
    ∃ ptr, (getArgumentWithPath platform key).run tree = .ok (some ptr) tree ∧
      (getOrAddArgument platform key).run tree = .ok ptr tree

section
variable {platform : Platform} {tree : EventArgs} {key name : CString}

theorem run_argumentMapAt_eq (tree : EventArgs) (key : CString) :
    (argumentMapAt [] key).run tree = .ok ⟨[], key⟩
      (if (tree.find key).isSome then tree else tree.insert key .unset) := by
  cases found : tree.find key <;>
    simp [argumentMapAt, readArgs, EventArgs.deref, found, writeArgument, EventArgs.insertAt]

theorem run_containsKey_single (platform : Platform) (regular : tree.Regular)
    (single : getKeyAsPath key = [name]) :
    (containsKey platform key).run tree = .ok (tree.find name).isSome tree := by
  rw [run_containsKey platform regular, single, pathOutcome]
  cases found : (tree.find name).isSome <;> simp

theorem run_getArgument_single (platform : Platform) (regular : tree.Regular)
    (single : getKeyAsPath key = [name]) :
    (getArgument platform key).run tree =
      if (tree.find name).isSome then
        .ok (some ⟨[], key⟩) (if (tree.find key).isSome then tree else tree.insert key .unset)
      else .ok none tree := by
  have asked : (containsKeyAt platform [] key).run tree = _ :=
    run_containsKey_single platform regular single
  cases found : (tree.find name).isSome <;>
    simp [getArgument, getArgumentWith, asked, found, run_argumentMapAt_eq]

theorem run_getOrAddArgument_single (platform : Platform) (regular : tree.Regular)
    (single : getKeyAsPath key = [name]) (present : (tree.find name).isSome = true) :
    (getOrAddArgument platform key).run tree = .ok ⟨[], key⟩
      (if (tree.find key).isSome then tree else tree.insert key .unset) := by
  have asked := run_containsKey_single platform regular single
  simp [getOrAddArgument, asked, present, run_argumentMapAt_eq]

end

/-- The two fetches part exactly on the name of a stored argument with a separator behind. -/
theorem fetchesAgree_iff (platform : Platform) (json : Json) (tree : EventArgs)
    (key name : CString) (wellFormed : json.WellFormed)
    (decoded : ofJson platform json = .ok tree) (single : getKeyAsPath key = [name]) :
    FetchesAgree platform tree key ↔ key = name ∨ tree.find name = none := by
  have regular := (completed_filled wellFormed decoded).regular
  have byPath := run_getArgumentWithPath platform regular key
  rw [single, pathOutcome] at byPath
  have asked := run_containsKey_single platform regular single
  have fetched := run_getArgument_single platform regular single
  constructor
  · intro agree
    cases present : (tree.find name).isSome with
    | false => exact .inr (by simpa using present)
    | true =>
        obtain ⟨found, walked, taken⟩ := agree.argument
        simp only [byPath, present, if_true, EStateM.run_pure, EStateM.Result.ok.injEq, and_true]
          at walked
        simp only [fetched, present, if_true, EStateM.Result.ok.injEq, ← walked,
          Option.some.injEq, ArgumentPtr.mk.injEq, true_and] at taken
        exact .inl taken.1
  · intro condition
    cases present : (tree.find name).isSome with
    | false =>
        rw [present] at byPath asked fetched
        refine ⟨⟨none, byPath, fetched⟩, ?_⟩
        intro contains
        exact absurd (gives_unique asked contains) (by simp)
    | true =>
        have stored : tree.find name ≠ none := Option.isSome_iff_ne_none.mp present
        have same : key = name := condition.resolve_right stored
        subst same
        have added := run_getOrAddArgument_single platform regular single present
        rw [present] at byPath fetched added
        exact ⟨⟨some ⟨[], key⟩, byPath, fetched⟩, fun _ => ⟨⟨[], key⟩, byPath, added⟩⟩

def fetchSample : Json := .object [(text "a", .numberUnsigned 1)]

def fetchSampleTree : EventArgs :=
  .mk [(text "a", scalarArgument (text "a") .int32 (.int32 1))]

theorem fetchesAgree_iff_sample :
    FetchesAgree .x64 fetchSampleTree (text "b/") ↔
      text "b/" = text "b" ∨ fetchSampleTree.find (text "b") = none :=
  fetchesAgree_iff .x64 fetchSample fetchSampleTree (text "b/") (text "b") (by decide) rfl
    (by decide)

/-- `GetArgument("a/")` inserts an argument that no constructor has finished. -/
theorem trailing_separator_inserts : ¬ ∀ platform json tree key, json.WellFormed →
    ofJson platform json = .ok tree → (getKeyAsPath key).length = 1 →
    FetchesAgree platform tree key := by
  intro all
  have agree := all .x64 fetchSample fetchSampleTree (text "a/") (by decide) rfl (by decide)
  obtain ⟨found, walked, fetched⟩ := agree.argument
  have byPath : (getArgumentWithPath .x64 (text "a/")).run fetchSampleTree =
      .ok (some ⟨[], text "a"⟩) fetchSampleTree := rfl
  have inserted : (getArgument .x64 (text "a/")).run fetchSampleTree =
      .ok (some ⟨[], text "a/"⟩) (fetchSampleTree.insert (text "a/") .unset) := rfl
  rw [byPath] at walked
  rw [inserted] at fetched
  simp only [EStateM.Result.ok.injEq, and_true] at walked fetched
  rw [← walked] at fetched
  exact absurd fetched.1 (by decide)

end SocketEvents
