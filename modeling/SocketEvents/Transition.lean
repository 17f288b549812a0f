import Mathlib.Data.List.Basic

/-! Runs of a step relation, with the states they leave behind, and rules to reason about them. -/

namespace Transition

variable {σ : Type} {step : σ → σ → Prop} {start last : σ} {path : List σ}

inductive Run (step : σ → σ → Prop) (start : σ) : List σ → σ → Prop
  | refl : Run step start [] start
  | snoc {path : List σ} {middle last : σ} : Run step start path middle → step middle last →
      Run step start (path ++ [middle]) last

namespace Run

theorem append {middle : σ} {rest : List σ} (first : Run step start path middle)
    (second : Run step middle rest last) : Run step start (path ++ rest) last := by
  induction second with
  | refl => simpa using first
  | snoc _ stepped ih =>
      rw [← List.append_assoc]
      exact ih.snoc stepped

theorem cons {next : σ} (stepped : step start next) (run : Run step next path last) :
    Run step start (start :: path) last :=
  append (snoc refl stepped) run

theorem invariant {holds : σ → Prop} (initial : holds start)
    (preserved : ∀ {before after}, holds before → step before after → holds after)
    (run : Run step start path last) : holds last := by
  induction run with
  | refl => exact initial
  | snoc _ stepped ih => exact preserved ih stepped

theorem clean_or_dirty (spoilt clean dirty : σ → Prop) (initial : clean start)
    (keeps : ∀ {before after}, step before after → clean before → ¬ spoilt before → clean after)
    (spoils : ∀ {before after}, step before after → clean before → spoilt before → dirty after)
    (stays : ∀ {before after}, step before after → dirty before → dirty after)
    (run : Run step start path last) :
    ((∀ visited ∈ path, ¬ spoilt visited) ∧ clean last) ∨
      ((∃ visited ∈ path, spoilt visited) ∧ dirty last) := by
  induction run with
  | refl => exact .inl ⟨by simp, initial⟩
  | @snoc path middle last _ stepped ih =>
      rcases ih with ⟨unspoilt, tidy⟩ | ⟨⟨visited, member, bad⟩, untidy⟩
      · by_cases bad : spoilt middle
        · exact .inr ⟨⟨middle, by simp, bad⟩, spoils stepped tidy bad⟩
        · refine .inl ⟨?_, keeps stepped tidy bad⟩
          intro visited member
          rcases List.mem_append.mp member with earlier | newest
          · exact unspoilt visited earlier
          · rw [List.mem_singleton.mp newest]
            exact bad
      · exact .inr ⟨⟨visited, List.mem_append_left _ member, bad⟩, stays stepped untidy⟩

/-- A log that some steps add an entry to, each of them for what that step does. -/
theorem logged {ε : Type} (log : List ε → σ → Prop) (records : σ → σ → ε → Prop)
    (initial : log [] start)
    (writes : ∀ {before after entries}, step before after → log entries before →
      log entries after ∨ ∃ entry, records before after entry ∧ log (entries ++ [entry]) after)
    (run : Run step start path last) :
    ∃ entries, log entries last ∧ ∀ entry ∈ entries, ∃ before after,
      [before, after] <:+: path ++ [last] ∧ records before after entry := by
  induction run with
  | refl => exact ⟨[], initial, by simp⟩
  | @snoc path middle last _ stepped ih =>
      obtain ⟨entries, held, told⟩ := ih
      have earlier : ∀ entry ∈ entries, ∃ before after,
          [before, after] <:+: path ++ [middle] ++ [last] ∧ records before after entry := by
        intro entry member
        obtain ⟨before, after, inside, recorded⟩ := told entry member
        exact ⟨before, after, inside.trans (List.prefix_append _ _).isInfix, recorded⟩
      rcases writes stepped held with same | ⟨entry, recorded, added⟩
      · exact ⟨entries, same, earlier⟩
      · refine ⟨entries ++ [entry], added, ?_⟩
        intro other member
        rcases List.mem_append.mp member with older | newest
        · exact earlier other older
        · rw [List.mem_singleton.mp newest]
          exact ⟨middle, last, ⟨path, [], by simp⟩, recorded⟩

end Run

section
variable {τ : Type} {abstract : τ → τ → Prop} {related : σ → τ → Prop}

/-- Every step is answered by a run, possibly of no steps, that keeps the states related. -/
def Simulates (step : σ → σ → Prop) (abstract : τ → τ → Prop) (related : σ → τ → Prop) : Prop :=
  ∀ before after image, step before after → related before image →
    ∃ path image', Run abstract image path image' ∧ related after image'

theorem Run.simulated {image : τ} (simulates : Simulates step abstract related)
    (run : Run step start path last) (initial : related start image) :
    ∃ path' image', Run abstract image path' image' ∧ related last image' := by
  induction run with
  | refl => exact ⟨[], image, .refl, initial⟩
  | @snoc path middle last _ stepped ih =>
      obtain ⟨earlier, between, ranEarlier, held⟩ := ih
      obtain ⟨later, final, ranLater, held'⟩ := simulates middle last between stepped held
      exact ⟨_, final, ranEarlier.append ranLater, held'⟩

end

section
variable {τ ς : Type} {act : τ × σ → τ × σ → Prop}

inductive Beside (step : σ → σ → Prop) (act : τ × σ → τ × σ → Prop) (state : τ × σ) :
    τ × σ → Prop
  | step {after : σ} : step state.2 after → Beside step act state (state.1, after)
  | act {after : τ × σ} : act state after → Beside step act state after

/-- Seen from the other side, the thread is a source of steps. -/
theorem Beside.whole {whole : σ → σ → Prop} (steps : ∀ {before after}, step before after →
    whole before after)
    (acts : ∀ {before after}, act before after → after.2 = before.2 ∨ whole before.2 after.2) :
    Simulates (Beside step act) whole fun state image => state.2 = image := by
  rintro before after image stepped rfl
  cases stepped with
  | step stepped => exact ⟨_, _, .snoc .refl (steps stepped), rfl⟩
  | act acted =>
      rcases acts acted with same | stepped
      · exact ⟨[], _, .refl, same⟩
      · exact ⟨_, _, .snoc .refl stepped, rfl⟩

/-- Seen from the thread, the steps do not happen. -/
theorem Beside.alone {related : σ → ς → Prop} {alone : τ × ς → τ × ς → Prop}
    (silent : ∀ {before after image}, step before after → related before image →
      related after image)
    (acts : ∀ {before after image}, act before after → related before.2 image →
      ∃ image', alone (before.1, image) (after.1, image') ∧ related after.2 image') :
    Simulates (Beside step act) alone fun state image =>
      state.1 = image.1 ∧ related state.2 image.2 := by
  rintro before after ⟨thread, image⟩ stepped ⟨rfl, held⟩
  cases stepped with
  | step stepped => exact ⟨[], _, .refl, rfl, silent stepped held⟩
  | act acted =>
      obtain ⟨image', moved, held'⟩ := acts acted held
      exact ⟨_, _, .snoc .refl moved, rfl, held'⟩

end

/-! Runs of labelled steps -/

section
variable {α : Type} {step : σ → α → σ → Prop} {start last : σ} {path : List (σ × α)}

inductive Trace (step : σ → α → σ → Prop) (start : σ) : List (σ × α) → σ → Prop
  | refl : Trace step start [] start
  | snoc {path : List (σ × α)} {middle last : σ} {action : α} : Trace step start path middle →
      step middle action last → Trace step start (path ++ [(middle, action)]) last

namespace Trace

theorem invariant_of (holds : σ → Prop) (allowed : α → Prop) (initial : holds start)
    (preserved : ∀ {before action after}, holds before → allowed action →
      step before action after → holds after)
    (trace : Trace step start path last) (all : ∀ visited ∈ path, allowed visited.2) :
    holds last := by
  induction trace with
  | refl => exact initial
  | snoc _ stepped ih =>
      simp only [List.forall_mem_append, List.forall_mem_singleton] at all
      exact preserved (ih all.1) all.2 stepped

theorem invariant (holds : σ → Prop) (initial : holds start)
    (preserved : ∀ {before action after}, holds before → step before action after → holds after)
    (trace : Trace step start path last) : holds last :=
  trace.invariant_of holds (fun _ => True) initial (fun held _ stepped => preserved held stepped)
    fun _ _ => trivial

theorem split (trace : Trace step start path last) {front back : List (σ × α)} {visited : σ × α}
    (cut : path = front ++ visited :: back) :
    ∃ next, Trace step start front visited.1 ∧ step visited.1 visited.2 next ∧
      Trace step next back last := by
  induction trace generalizing back with
  | refl => simp at cut
  | snoc trace stepped ih =>
      rcases List.eq_nil_or_concat back with rfl | ⟨shorter, newest, rfl⟩
      · obtain ⟨rfl, same⟩ := List.append_inj' cut rfl
        obtain rfl := List.singleton_inj.mp same
        exact ⟨_, trace, stepped, .refl⟩
      · rw [List.concat_eq_append, ← List.cons_append, ← List.append_assoc] at cut
        obtain ⟨rfl, same⟩ := List.append_inj' cut rfl
        obtain rfl := List.singleton_inj.mp same
        obtain ⟨next, before, stepped', after⟩ := ih rfl
        exact ⟨next, before, stepped', List.concat_eq_append ▸ after.snoc stepped⟩

theorem first (trace : Trace step start path last) {back : List (σ × α)} {visited : σ × α}
    (cut : path = visited :: back) :
    visited.1 = start ∧ ∃ next, step start visited.2 next ∧ Trace step next back last := by
  have stays : ∀ {path last}, Trace step start path last → path = [] → last = start := by
    intro path last trace none
    cases trace with
    | refl => rfl
    | snoc _ _ => simp at none
  have cut' : path = [] ++ visited :: back := cut
  obtain ⟨next, before, stepped, after⟩ := trace.split cut'
  have here := stays before rfl
  exact ⟨here, next, here ▸ stepped, after⟩

theorem good_iff_permitted {good holds : σ → Prop} {permitted : σ → α → Prop}
    (initial : holds start) (sufficient : ∀ {state}, holds state → good state)
    (keeps : ∀ {before action after}, step before action after → holds before →
      permitted before action → holds after)
    (breaks : ∀ {before action after}, step before action after → holds before →
      ¬ permitted before action → ¬ good after)
    (trace : Trace step start path last) :
    ((∀ visited ∈ path, good visited.1) ∧ good last) ↔
      ∀ visited ∈ path, permitted visited.1 visited.2 := by
  have verdict : (((∀ visited ∈ path, good visited.1) ∧ good last) ∧ holds last ∧
      ∀ visited ∈ path, permitted visited.1 visited.2) ∨
      (¬ ((∀ visited ∈ path, good visited.1) ∧ good last) ∧
        ¬ ∀ visited ∈ path, permitted visited.1 visited.2) := by
    induction trace with
    | refl => exact .inl ⟨⟨by simp, sufficient initial⟩, initial, by simp⟩
    | @snoc path middle last action _ stepped ih =>
        simp only [List.forall_mem_append, List.forall_mem_singleton]
        rcases ih with ⟨⟨earlier, fine⟩, held, allowed⟩ | ⟨spoilt, refused⟩
        · by_cases next : permitted middle action
          · have held' := keeps stepped held next
            exact .inl ⟨⟨⟨earlier, fine⟩, sufficient held'⟩, held', allowed, next⟩
          · exact .inr ⟨fun all => breaks stepped held next all.2, fun all => next all.2⟩
        · exact .inr ⟨fun all => spoilt all.1, fun all => refused all.1⟩
  rcases verdict with ⟨fine, _, allowed⟩ | ⟨spoilt, refused⟩
  · exact iff_of_true fine allowed
  · exact iff_of_false spoilt refused

end Trace

end

end Transition
