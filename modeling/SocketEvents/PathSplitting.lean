import SocketEvents.KeyPath

/-!
The splitter against the segments of a key. The two agree on the keys in which every separator
ends a segment; on the others the splitter emits a component that holds a separator.
-/

namespace SocketEvents

/-- The maximal segments of the key that are not empty and hold no separator, in order. -/
def segments (key : CString) : List CString :=
  (key.splitOn separator).filter (· ≠ [])

def WellSeparated (key : CString) : Prop :=
  key.head? ≠ some separator ∧ ¬ [separator, separator] <:+: key

instance (key : CString) : Decidable (WellSeparated key) :=
  inferInstanceAs (Decidable (_ ∧ _))

theorem segments_append_separator (front rest : CString) :
    segments (front ++ separator :: rest) = segments front ++ segments rest := by
  simp only [segments, List.splitOn_append_cons_self, List.filter_append]

theorem segments_clean {name : CString} (clean : separator ∉ name) :
    segments name = if name = [] then [] else [name] := by
  rw [segments, List.splitOn_eq_singleton clean]
  by_cases empty : name = [] <;> simp [empty]

theorem segments_plain (key : CString) : ∀ name ∈ segments key, PlainName name := by
  induction length : key.length using Nat.strongRecOn generalizing key with
  | ind size ih =>
      intro name member
      by_cases inside : separator ∈ key
      · obtain ⟨front, rest, rfl⟩ := List.append_of_mem inside
        simp only [List.length_append, List.length_cons] at length
        rw [segments_append_separator] at member
        rcases List.mem_append.mp member with earlier | later
        · exact ih front.length (by omega) front rfl name earlier
        · exact ih rest.length (by omega) rest rfl name later
      · rw [segments_clean inside] at member
        by_cases empty : key = []
        · simp [empty] at member
        · simp only [empty, if_false, List.mem_singleton] at member
          exact member ▸ ⟨empty, inside⟩

theorem separators_cons (c : UInt8) (rest : CString) :
    [separator, separator] <:+: c :: rest ↔
      c = separator ∧ rest.head? = some separator ∨ [separator, separator] <:+: rest := by
  rw [List.infix_cons_iff, List.cons_prefix_cons]
  cases rest with
  | nil => simp
  | cons next others => simp [List.cons_prefix_cons, eq_comm]

def SeparatedAfter (current rest : CString) : Prop :=
  (current = [] → rest.head? ≠ some separator) ∧ ¬ [separator, separator] <:+: rest

theorem separatedAfter_close {current rest : CString} (pending : current ≠ []) :
    SeparatedAfter current (separator :: rest) ↔ SeparatedAfter [] rest := by
  simp only [SeparatedAfter, separators_cons, pending, false_implies, true_and, not_or,
    forall_const]

theorem separatedAfter_grow {current rest : CString} {c : UInt8} (other : c ≠ separator) :
    SeparatedAfter current (c :: rest) ↔ SeparatedAfter (current ++ [c]) rest := by
  simp [SeparatedAfter, separators_cons, other]

theorem not_separatedAfter_leading (rest : CString) :
    ¬ SeparatedAfter [] (separator :: rest) := by
  simp [SeparatedAfter]

theorem pathFrom_segments {current rest : CString} (clean : separator ∉ current)
    (separated : SeparatedAfter current rest) :
    pathFrom current rest = segments (current ++ rest) := by
  induction rest generalizing current with
  | nil => rw [pathFrom, List.append_nil, segments_clean clean]
  | cons c rest ih =>
      by_cases isSeparator : c = separator
      · subst isSeparator
        by_cases pending : current = []
        · subst pending
          exact (not_separatedAfter_leading rest separated).elim
        · have next := ih (by simp) ((separatedAfter_close pending).mp separated)
          rw [segments_append_separator, segments_clean clean]
          simp [pathFrom, pending, next]
      · have next := ih (by simp [clean, Ne.symm isSeparator])
          ((separatedAfter_grow isSeparator).mp separated)
        simp [pathFrom, isSeparator, next]

theorem pathFrom_unclean {current : CString} (rest : CString) (held : separator ∈ current) :
    ∃ name ∈ pathFrom current rest, separator ∈ name := by
  induction rest generalizing current with
  | nil => exact ⟨current, by simp [pathFrom, List.ne_nil_of_mem held], held⟩
  | cons c rest ih =>
      simp only [pathFrom]
      split
      · exact ⟨current, by simp, held⟩
      · exact ih (by simp [held])

theorem separated_of_clean {current rest : CString}
    (clean : ∀ name ∈ pathFrom current rest, separator ∉ name) :
    SeparatedAfter current rest := by
  induction rest generalizing current with
  | nil => simp [SeparatedAfter]
  | cons c rest ih =>
      by_cases isSeparator : c = separator
      · subst isSeparator
        by_cases pending : current = []
        · subst pending
          have leading : separator ∈ [separator] := by simp
          obtain ⟨name, member, held⟩ := pathFrom_unclean rest leading
          exact (clean name (by simpa [pathFrom] using member) held).elim
        · rw [separatedAfter_close pending]
          apply ih
          intro name member
          exact clean name (by simp [pathFrom, pending, member])
      · rw [separatedAfter_grow isSeparator]
        apply ih
        intro name member
        exact clean name (by simpa [pathFrom, isSeparator] using member)

theorem separatedAfter_nil (key : CString) : SeparatedAfter [] key ↔ WellSeparated key := by
  simp [SeparatedAfter, WellSeparated]

theorem getKeyAsPath_plain_iff (key : CString) :
    (∀ name ∈ getKeyAsPath key, PlainName name) ↔ WellSeparated key := by
  rw [← separatedAfter_nil]
  constructor
  · intro plain
    rw [getKeyAsPath_eq] at plain
    exact separated_of_clean fun name member => (plain name member).2
  · intro separated name member
    rw [getKeyAsPath_eq, pathFrom_segments (by simp) separated] at member
    exact segments_plain _ name member

theorem getKeyAsPath_segments_iff (key : CString) :
    getKeyAsPath key = segments key ↔ WellSeparated key := by
  constructor
  · intro same
    rw [← getKeyAsPath_plain_iff, same]
    exact segments_plain key
  · intro separated
    rw [getKeyAsPath_eq]
    exact pathFrom_segments (by simp) ((separatedAfter_nil key).mpr separated)

structure PathSplitting (key other : CString) : Prop where
  maximal : getKeyAsPath key = segments key
  plain : ∀ name ∈ getKeyAsPath key, PlainName name
  redundant : segments other = segments key → getKeyAsPath other = getKeyAsPath key
  joined : ∀ names, names ≠ [] → (∀ name ∈ names, PlainName name) →
    getKeyAsPath (joinPath names) = names

theorem pathSplitting_iff (key other : CString) :
    PathSplitting key other ↔ WellSeparated key ∧
      (segments other = segments key → WellSeparated other) := by
  constructor
  · intro splitting
    refine ⟨(getKeyAsPath_plain_iff key).mp splitting.plain, ?_⟩
    intro same
    rw [← getKeyAsPath_plain_iff, splitting.redundant same]
    exact splitting.plain
  · rintro ⟨separated, alike⟩
    have split : getKeyAsPath key = segments key := (getKeyAsPath_segments_iff key).mpr separated
    refine ⟨split, (getKeyAsPath_plain_iff key).mpr separated, ?_, ?_⟩
    · intro same
      rw [split, (getKeyAsPath_segments_iff other).mpr (alike same), same]
    · intro names _ plain
      exact getKeyAsPath_joinPath names plain

/-- The start index moves only past a separator that ends a segment: behind two separators
the second one is part of the component. -/
theorem doubled_separator_kept : ¬ ∀ key other, PathSplitting key other := by
  intro all
  have same : getKeyAsPath (text "a//b") = segments (text "a//b") :=
    (all (text "a//b") []).maximal
  exact absurd same (by decide)

end SocketEvents
