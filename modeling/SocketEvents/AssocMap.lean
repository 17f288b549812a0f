import Mathlib.Data.List.Basic

/-! Finite maps as association lists: the behaviour of an ordered map that is searched
and written by key. The order of the entries is not observable through these functions. -/

namespace AssocMap

variable {κ α : Type} [DecidableEq κ]

def find (key : κ) : List (κ × α) → Option α
  | [] => none
  | (other, value) :: rest => if other = key then some value else find key rest

def insert (key : κ) (value : α) : List (κ × α) → List (κ × α)
  | [] => [(key, value)]
  | (other, previous) :: rest =>
      if other = key then (key, value) :: rest else (other, previous) :: insert key value rest

def erase (key : κ) : List (κ × α) → List (κ × α)
  | [] => []
  | (other, value) :: rest =>
      if other = key then erase key rest else (other, value) :: erase key rest

@[simp] theorem find_nil (key : κ) : find key ([] : List (κ × α)) = none := rfl

@[simp] theorem find_insert_same (key : κ) (value : α) (entries : List (κ × α)) :
    find key (insert key value entries) = some value := by
  induction entries with
  | nil => simp [insert, find]
  | cons entry rest ih =>
      by_cases same : entry.1 = key
      · simp [insert, same, find]
      · simp [insert, same, find, ih]

theorem find_insert_other {key other : κ} (value : α) (entries : List (κ × α))
    (different : other ≠ key) :
    find other (insert key value entries) = find other entries := by
  induction entries with
  | nil => simp [insert, find, different.symm]
  | cons entry rest ih =>
      by_cases same : entry.1 = key
      · simp [insert, same, find, different.symm]
      · simp only [insert, same, if_false, find, ih]

theorem find_insert (key other : κ) (value : α) (entries : List (κ × α)) :
    find other (insert key value entries) =
      if other = key then some value else find other entries := by
  by_cases same : other = key
  · simp [same]
  · simp [same, find_insert_other value entries same]

theorem insert_insert (key : κ) (first second : α) (entries : List (κ × α)) :
    insert key second (insert key first entries) = insert key second entries := by
  induction entries with
  | nil => simp [insert]
  | cons entry rest ih =>
      by_cases same : entry.1 = key
      · simp [insert, same]
      · simp [insert, same, ih]

theorem insert_of_find {key : κ} {value : α} {entries : List (κ × α)}
    (found : find key entries = some value) : insert key value entries = entries := by
  induction entries with
  | nil => simp at found
  | cons entry rest ih =>
      by_cases same : entry.1 = key
      · simp only [find, same, if_true, Option.some.injEq] at found
        simp [insert, ← same, ← found]
      · simp only [find, same, if_false] at found
        simp [insert, same, ih found]

theorem insert_of_absent {key : κ} {value : α} {entries : List (κ × α)}
    (absent : find key entries = none) : insert key value entries = entries ++ [(key, value)] := by
  induction entries with
  | nil => rfl
  | cons entry rest ih =>
      by_cases same : entry.1 = key
      · simp [find, same] at absent
      · simp only [find, same, if_false] at absent
        simp [insert, same, ih absent]

theorem find_append (key : κ) (front back : List (κ × α)) :
    find key (front ++ back) = (find key front).or (find key back) := by
  induction front with
  | nil => rfl
  | cons entry rest ih =>
      by_cases same : entry.1 = key
      · simp [find, same]
      · simp [find, same, ih]

theorem find_map {β : Type} (key : κ) (f : α → β) (entries : List (κ × α)) :
    find key (entries.map fun entry => (entry.1, f entry.2)) = (find key entries).map f := by
  induction entries with
  | nil => rfl
  | cons entry rest ih =>
      by_cases same : entry.1 = key
      · simp [find, same]
      · simp [find, same, ih]

theorem mem_of_find {key : κ} {value : α} {entries : List (κ × α)}
    (found : find key entries = some value) : (key, value) ∈ entries := by
  induction entries with
  | nil => simp at found
  | cons entry rest ih =>
      simp only [find] at found
      split at found
      · rename_i same
        simp only [Option.some.injEq] at found
        simp [← same, ← found]
      · exact List.mem_cons_of_mem _ (ih found)

theorem find_of_mem {key : κ} {value : α} {entries : List (κ × α)}
    (distinct : (entries.map Prod.fst).Nodup) (member : (key, value) ∈ entries) :
    find key entries = some value := by
  induction entries with
  | nil => simp at member
  | cons entry rest ih =>
      simp only [List.map_cons, List.nodup_cons] at distinct
      rcases List.mem_cons.mp member with same | later
      · simp [find, ← same]
      · have different : entry.1 ≠ key := by
          intro same
          exact distinct.1 (same ▸ List.mem_map_of_mem (f := Prod.fst) later)
        simp only [find, different, if_false]
        exact ih distinct.2 later

theorem find_eq_none_iff {key : κ} {entries : List (κ × α)} :
    find key entries = none ↔ key ∉ entries.map Prod.fst := by
  induction entries with
  | nil => simp
  | cons entry rest ih =>
      by_cases same : entry.1 = key
      · simp [find, same]
      · simp only [find, same, if_false, ih, List.map_cons, List.mem_cons, not_or]
        exact ⟨fun absent => ⟨Ne.symm same, absent⟩, fun absent => absent.2⟩

theorem find_isSome_iff {key : κ} {entries : List (κ × α)} :
    (find key entries).isSome = true ↔ key ∈ entries.map Prod.fst := by
  rw [← Option.ne_none_iff_isSome, ne_eq, find_eq_none_iff, not_not]

theorem find_erase (key other : κ) (entries : List (κ × α)) :
    find other (erase key entries) = if other = key then none else find other entries := by
  induction entries with
  | nil => simp [erase]
  | cons entry rest ih =>
      by_cases erased : entry.1 = key
      · by_cases same : other = key
        · simp only [erase, erased, if_true]
          rw [ih]
          simp [same]
        · simp [erase, erased, ih, same, find, Ne.symm same]
      · by_cases same : entry.1 = other
        · simp [erase, find, same, same ▸ erased]
        · simp [erase, erased, find, same, ih]

theorem erase_eq_filter (key : κ) (entries : List (κ × α)) :
    erase key entries = entries.filter (·.1 ≠ key) := by
  induction entries with
  | nil => rfl
  | cons entry rest ih =>
      by_cases erased : entry.1 = key
      · simp [erase, erased, ih]
      · simp [erase, erased, ih]

theorem keys_erase (key : κ) (entries : List (κ × α)) :
    (erase key entries).map Prod.fst = (entries.map Prod.fst).filter (· ≠ key) := by
  induction entries with
  | nil => rfl
  | cons entry rest ih =>
      by_cases erased : entry.1 = key
      · simp [erase, erased, ih]
      · simp [erase, erased, ih]

theorem keys_insert_of_find {key : κ} {value previous : α} {entries : List (κ × α)}
    (found : find key entries = some previous) :
    (insert key value entries).map Prod.fst = entries.map Prod.fst := by
  induction entries with
  | nil => simp at found
  | cons entry rest ih =>
      by_cases same : entry.1 = key
      · simp [insert, same]
      · simp only [find, same, if_false] at found
        simp [insert, same, ih found]

end AssocMap
