import Mathlib.Data.List.Induction

/-! Entries added to a history and not removed since, under different notions of removal. -/

namespace History

variable {α : Type} {added entry : α} {removes extra : α → Prop} {history : List α}

theorem cut_cases {front back front' back' : List α} {item item' : α}
    (same : front ++ item :: back = front' ++ item' :: back') :
    (front = front' ∧ item = item') ∨ (∃ middle, front' = front ++ item :: middle) ∨
      (∃ middle, front = front' ++ item' :: middle) := by
  rcases List.append_eq_append_iff.mp same with ⟨middle, frontEq, itemEq⟩ |
    ⟨middle, frontEq, itemEq⟩
  · cases middle with
    | nil =>
        simp only [List.nil_append, List.cons.injEq] at itemEq
        exact .inl ⟨by simpa using frontEq.symm, itemEq.1⟩
    | cons head tail =>
        simp only [List.cons_append, List.cons.injEq] at itemEq
        exact .inr (.inl ⟨tail, itemEq.1 ▸ frontEq⟩)
  · cases middle with
    | nil =>
        simp only [List.nil_append, List.cons.injEq] at itemEq
        exact .inl ⟨by simpa using frontEq, itemEq.1.symm⟩
    | cons head tail =>
        simp only [List.cons_append, List.cons.injEq] at itemEq
        exact .inr (.inr ⟨tail, itemEq.1 ▸ frontEq⟩)

/-- The history has the entry, and after it nothing that removes it. -/
def Since (added : α) (removes : α → Prop) (history : List α) : Prop :=
  ∃ before after, history = before ++ added :: after ∧ ∀ later ∈ after, ¬ removes later

theorem not_since_nil : ¬ Since added removes [] := by
  rintro ⟨before, after, split, _⟩
  simp at split

theorem Since.append (since : Since added removes history) {later : List α}
    (kept : ∀ entry ∈ later, ¬ removes entry) : Since added removes (history ++ later) := by
  obtain ⟨before, after, rfl, unremoved⟩ := since
  refine ⟨before, after ++ later, by simp, ?_⟩
  intro entry member
  rcases List.mem_append.mp member with older | newer
  · exact unremoved entry older
  · exact kept entry newer

theorem since_append_singleton : Since added removes (history ++ [entry]) ↔
    entry = added ∨ (Since added removes history ∧ ¬ removes entry) := by
  constructor
  · rintro ⟨before, after, split, unremoved⟩
    rcases List.eq_nil_or_concat after with rfl | ⟨middle, last, rfl⟩
    · have same := (List.append_inj' split rfl).2
      simp only [List.cons.injEq, and_true] at same
      exact .inl same
    · rw [List.concat_eq_append] at split unremoved
      rw [← List.cons_append, ← List.append_assoc] at split
      obtain ⟨shorter, same⟩ := List.append_inj' split rfl
      simp only [List.cons.injEq, and_true] at same
      refine .inr ⟨⟨before, middle, shorter, ?_⟩, ?_⟩
      · exact fun later member => unremoved later (List.mem_append_left _ member)
      · exact same ▸ unremoved last (by simp)
  · rintro (rfl | ⟨since, kept⟩)
    · exact ⟨history, [], rfl, by simp⟩
    · exact since.append (by simpa using kept)

theorem Since.mono {removes' : α → Prop} (since : Since added removes history)
    (fewer : ∀ entry, removes' entry → removes entry) : Since added removes' history := by
  obtain ⟨before, after, split, unremoved⟩ := since
  exact ⟨before, after, split, fun later member removed =>
    unremoved later member (fewer later removed)⟩

theorem gap_of_since (since : Since added removes history)
    (lost : ¬ Since added (fun entry => removes entry ∨ extra entry) history) :
    ∃ before entry after, history = before ++ entry :: after ∧ extra entry ∧
      Since added removes before ∧ ∀ later ∈ after, later ≠ added ∧ ¬ removes later := by
  induction history using List.reverseRecOn with
  | nil => exact (not_since_nil since).elim
  | append_singleton earlier last ih =>
      rw [since_append_singleton] at since lost
      rcases since with same | ⟨since, kept⟩
      · exact (lost (.inl same)).elim
      · by_cases wide : Since added (fun entry => removes entry ∨ extra entry) earlier
        · have removed : extra last := by
            by_contra unremoved
            exact lost (.inr ⟨wide, fun either => either.elim kept unremoved⟩)
          exact ⟨earlier, last, [], rfl, removed, since, by simp⟩
        · obtain ⟨before, entry, after, split, removed, held, untouched⟩ := ih since wide
          refine ⟨before, entry, after ++ [last], by simp [split], removed, held, ?_⟩
          intro later member
          rcases List.mem_append.mp member with older | newest
          · exact untouched later older
          · rw [List.mem_singleton.mp newest]
            exact ⟨fun same => lost (.inl same), kept⟩

theorem not_since_of_gap {before after : List α} (split : history = before ++ entry :: after)
    (removed : removes entry) (different : entry ≠ added)
    (absent : ∀ later ∈ after, later ≠ added) :
    ¬ Since added removes history := by
  rintro ⟨front, back, split', unremoved⟩
  have joined := split.symm.trans split'
  rcases cut_cases joined with ⟨_, same⟩ | ⟨middle, frontEq⟩ | ⟨middle, beforeEq⟩
  · exact different same
  · rw [frontEq] at joined
    simp only [List.append_assoc, List.cons_append, List.append_cancel_left_eq, List.cons.injEq,
      true_and] at joined
    exact absent added (by simp [joined]) rfl
  · rw [beforeEq] at joined
    simp only [List.append_assoc, List.cons_append, List.append_cancel_left_eq, List.cons.injEq,
      true_and] at joined
    exact unremoved entry (by simp [← joined]) removed

end History
