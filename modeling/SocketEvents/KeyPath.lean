import SocketEvents.CString

/-! Splitting a key into path components, and what the splitter can emit. -/

namespace SocketEvents

def separator : UInt8 := 47

def substr (key : CString) (start length : Nat) : CString :=
  (key.drop start).take length

def getKeyAsPathFrom (key : CString) :
    List UInt8 → Nat → Nat → List CString → Nat × List CString
  | [], _, start, path => (start, path)
  | c :: rest, i, start, path =>
      if c = separator then
        let length := i - start
        if length > 0 then
          getKeyAsPathFrom key rest (i + 1) (i + 1) (path ++ [substr key start length])
        else
          -- an empty segment leaves `start` where it was
          getKeyAsPathFrom key rest (i + 1) start path
      else
        getKeyAsPathFrom key rest (i + 1) start path

def getKeyAsPath (key : CString) : List CString :=
  let (start, path) := getKeyAsPathFrom key key 0 0 []
  if start < key.length then path ++ [key.drop start] else path

/-- The same splitting with the pending segment in place of the two indices. -/
def pathFrom (current : CString) : List UInt8 → List CString
  | [] => if current = [] then [] else [current]
  | c :: rest =>
      if c = separator ∧ current ≠ [] then current :: pathFrom [] rest
      else pathFrom (current ++ [c]) rest

theorem getKeyAsPathFrom_eq (key passed rest : CString) (start : Nat) (path : List CString)
    (split : key = passed ++ rest) (started : start ≤ passed.length) :
    (let (final, emitted) := getKeyAsPathFrom key rest passed.length start path
     if final < key.length then emitted ++ [key.drop final] else emitted) =
      path ++ pathFrom (passed.drop start) rest := by
  induction rest generalizing passed start path with
  | nil =>
      have whole : key = passed := by simpa using split
      subst whole
      simp only [getKeyAsPathFrom, pathFrom, List.drop_eq_nil_iff]
      by_cases pending : start < key.length
      · simp [pending, Nat.not_le.mpr pending]
      · simp [pending, Nat.le_of_not_lt pending]
  | cons c rest ih =>
      have split' : key = (passed ++ [c]) ++ rest := by simpa using split
      have kept : ∀ low, low ≤ passed.length →
          (passed ++ [c]).drop low = passed.drop low ++ [c] := by
        intro low below
        rw [List.drop_append_of_le_length below]
      simp only [getKeyAsPathFrom, pathFrom]
      by_cases isSeparator : c = separator
      · by_cases pending : passed.length - start > 0
        · have current : substr key start (passed.length - start) = passed.drop start := by
            rw [substr, split, List.drop_append_of_le_length started]
            rw [List.take_append_of_le_length (by simp)]
            exact List.take_of_length_le (by simp)
          have nonempty : passed.drop start ≠ [] := by
            simp only [ne_eq, List.drop_eq_nil_iff]
            omega
          have next := ih (passed ++ [c]) (passed.length + 1)
            (path ++ [passed.drop start]) split' (by simp)
          simp only [List.length_append, List.length_singleton] at next
          simp only [isSeparator, if_true, pending, current, nonempty, ne_eq, not_false_eq_true,
            and_self]
          rw [isSeparator] at next
          rw [next]
          simp
        · have empty : passed.drop start = [] := by
            simp only [List.drop_eq_nil_iff]
            omega
          have next := ih (passed ++ [c]) start path split' (by simp; omega)
          simp only [List.length_append, List.length_singleton] at next
          simp only [isSeparator, if_true, pending, if_false, empty, ne_eq, not_true_eq_false,
            and_false]
          rw [isSeparator] at next
          rw [next]
          rw [← isSeparator, kept start started, empty]
      · have next := ih (passed ++ [c]) start path split' (by simp; omega)
        simp only [List.length_append, List.length_singleton] at next
        simp only [isSeparator, if_false, false_and]
        rw [next, kept start started]

theorem getKeyAsPath_eq (key : CString) : getKeyAsPath key = pathFrom [] key := by
  have whole := getKeyAsPathFrom_eq key [] key 0 [] (by simp) (by simp)
  simpa [getKeyAsPath] using whole

/-- What the splitter can emit: one character, then none that is a separator. -/
def Component (name : CString) : Prop :=
  ∃ first rest, name = first :: rest ∧ separator ∉ rest

def PlainName (name : CString) : Prop := name ≠ [] ∧ separator ∉ name

instance (name : CString) : Decidable (PlainName name) :=
  inferInstanceAs (Decidable (_ ∧ _))

theorem PlainName.component {name : CString} (plain : PlainName name) : Component name := by
  obtain ⟨nonempty, clean⟩ := plain
  cases name with
  | nil => exact (nonempty rfl).elim
  | cons first rest =>
      exact ⟨first, rest, rfl, fun member => clean (List.mem_cons_of_mem _ member)⟩

theorem Component.append {name : CString} {c : UInt8} (component : Component name)
    (other : c ≠ separator) : Component (name ++ [c]) := by
  obtain ⟨first, rest, rfl, clean⟩ := component
  exact ⟨first, rest ++ [c], rfl, by simp [clean, other.symm]⟩

theorem pathFrom_components (current : CString) (rest : List UInt8)
    (pending : current = [] ∨ Component current) :
    ∀ name ∈ pathFrom current rest, Component name := by
  induction rest generalizing current with
  | nil =>
      intro name member
      simp only [pathFrom] at member
      split at member
      · simp at member
      · rename_i nonempty
        rw [List.mem_singleton.mp member]
        exact pending.resolve_left nonempty
  | cons c rest ih =>
      intro name member
      simp only [pathFrom] at member
      split at member
      · rename_i closed
        rcases List.mem_cons.mp member with same | later
        · exact same ▸ pending.resolve_left closed.2
        · exact ih [] (Or.inl rfl) name later
      · rename_i grown
        refine ih (current ++ [c]) (Or.inr ?_) name member
        rcases pending with empty | component
        · exact ⟨c, [], by simp [empty], by simp⟩
        · have nonempty : current ≠ [] := by
            obtain ⟨first, rest, equal, _⟩ := component
            simp [equal]
          exact component.append fun same => grown ⟨same, nonempty⟩

theorem getKeyAsPath_components (key : CString) :
    ∀ name ∈ getKeyAsPath key, Component name := by
  rw [getKeyAsPath_eq]
  exact pathFrom_components [] key (Or.inl rfl)

theorem pathFrom_clean (current rest : CString) (nonempty : current ≠ [])
    (clean : separator ∉ rest) : pathFrom current rest = [current ++ rest] := by
  induction rest generalizing current with
  | nil => simp [pathFrom, nonempty]
  | cons c rest ih =>
      have other : c ≠ separator := fun same => clean (by simp [same])
      have tail : separator ∉ rest := fun member => clean (List.mem_cons_of_mem _ member)
      simp only [pathFrom, other, false_and, if_false]
      rw [ih (current ++ [c]) (by simp) tail]
      simp

theorem Component.getKeyAsPath {name : CString} (component : Component name) :
    getKeyAsPath name = [name] := by
  obtain ⟨first, rest, rfl, clean⟩ := component
  rw [getKeyAsPath_eq]
  simp only [pathFrom, ne_eq, not_true_eq_false, and_false, if_false, List.nil_append]
  exact pathFrom_clean [first] rest (by simp) clean

theorem pathFrom_ne_nil (current : CString) (rest : List UInt8) (nonempty : current ≠ []) :
    pathFrom current rest ≠ [] := by
  induction rest generalizing current with
  | nil => simp [pathFrom, nonempty]
  | cons c rest ih =>
      simp only [pathFrom]
      split
      · simp
      · exact ih (current ++ [c]) (by simp)

theorem getKeyAsPath_eq_nil_iff (key : CString) : getKeyAsPath key = [] ↔ key = [] := by
  rw [getKeyAsPath_eq]
  cases key with
  | nil => simp [pathFrom]
  | cons c rest =>
      have nonempty := pathFrom_ne_nil [c] rest (by simp)
      simpa [pathFrom] using nonempty

def joinPath : List CString → CString
  | [] => []
  | [name] => name
  | name :: next :: rest => name ++ separator :: joinPath (next :: rest)

theorem pathFrom_segment (current name rest : CString) (clean : separator ∉ name)
    (nonempty : current ++ name ≠ []) :
    pathFrom current (name ++ separator :: rest) = (current ++ name) :: pathFrom [] rest := by
  induction name generalizing current with
  | nil =>
      have pending : current ≠ [] := by simpa using nonempty
      simp [pathFrom, pending]
  | cons c name ih =>
      have other : c ≠ separator := fun same => clean (by simp [same])
      have tail : separator ∉ name := fun member => clean (List.mem_cons_of_mem _ member)
      simp only [List.cons_append, pathFrom, other, false_and, if_false]
      rw [ih (current ++ [c]) tail (by simp)]
      simp

theorem getKeyAsPath_joinPath (names : List CString) (plain : ∀ name ∈ names, PlainName name) :
    getKeyAsPath (joinPath names) = names := by
  rw [getKeyAsPath_eq]
  induction names with
  | nil => simp [joinPath, pathFrom]
  | cons name rest ih =>
      have first : PlainName name := plain name (by simp)
      have others : ∀ other ∈ rest, PlainName other :=
        fun other member => plain other (List.mem_cons_of_mem _ member)
      cases rest with
      | nil =>
          rw [joinPath, ← getKeyAsPath_eq]
          exact first.component.getKeyAsPath
      | cons next rest =>
          rw [joinPath, pathFrom_segment [] name _ first.2 (by simpa using first.1)]
          rw [ih others]
          simp

theorem pathFrom_single {current name : CString} (rest : List UInt8) (nonempty : current ≠ [])
    (single : pathFrom current rest = [name]) :
    current ++ rest = name ∨ current ++ rest = name ++ [separator] := by
  induction rest generalizing current with
  | nil =>
      left
      simpa [pathFrom, nonempty] using single
  | cons c rest ih =>
      by_cases isSeparator : c = separator
      · simp only [pathFrom, isSeparator, nonempty, ne_eq, not_false_eq_true, and_self, if_true,
          List.cons.injEq] at single
        have ended : rest = [] := by
          rw [← getKeyAsPath_eq_nil_iff, getKeyAsPath_eq]
          exact single.2
        right
        rw [ended, isSeparator, single.1]
      · simp only [pathFrom, isSeparator, false_and, if_false] at single
        have grown := ih (by simp) single
        simpa using grown

theorem getKeyAsPath_single_iff (key name : CString) :
    getKeyAsPath key = [name] ↔
      Component name ∧ (key = name ∨ key = name ++ [separator]) := by
  constructor
  · intro single
    refine ⟨getKeyAsPath_components key name (by simp [single]), ?_⟩
    rw [getKeyAsPath_eq] at single
    cases key with
    | nil => simp [pathFrom] at single
    | cons c rest =>
        simp only [pathFrom, ne_eq, not_true_eq_false, and_false, if_false] at single
        exact pathFrom_single rest (by simp) single
  · rintro ⟨component, rfl | rfl⟩
    · exact component.getKeyAsPath
    · obtain ⟨first, rest, rfl, clean⟩ := component
      have closed := pathFrom_segment [first] rest [] clean (by simp)
      rw [getKeyAsPath_eq]
      simpa [pathFrom] using closed

example : getKeyAsPath (text "player//name/") = [text "player", text "/name"] := by decide

end SocketEvents
