import SocketEvents.AssocMap
import Mathlib.Data.List.Nodup

/-!
A heap of objects of one type. An address is never given out again, so the addresses freed so
far and those still live are distinct from each other: nothing is freed twice.
-/

structure Heap (α : Type) where
  cells : List (Nat × α)
  next : Nat
  freed : List Nat
  distinct : (freed ++ cells.map Prod.fst).Nodup
  below : ∀ address ∈ freed ++ cells.map Prod.fst, address < next

namespace Heap

variable {α : Type}

def empty : Heap α :=
  { cells := [], next := 0, freed := [], distinct := List.nodup_nil, below := by simp }

def load (address : Nat) (heap : Heap α) : Option α := AssocMap.find address heap.cells

def Live (address : Nat) (heap : Heap α) : Prop := address ∈ heap.cells.map Prod.fst

instance (address : Nat) (heap : Heap α) : Decidable (heap.Live address) :=
  inferInstanceAs (Decidable (_ ∈ _))

def allocate (value : α) (heap : Heap α) : Heap α where
  cells := heap.cells ++ [(heap.next, value)]
  next := heap.next + 1
  freed := heap.freed
  distinct := by
    rw [List.map_append, ← List.append_assoc]
    refine List.nodup_append.mpr ⟨heap.distinct, by simp, ?_⟩
    intro address member other last same
    have fresh := heap.below address member
    simp only [List.map_cons, List.map_nil, List.mem_singleton] at last
    omega
  below := by
    intro address member
    simp only [List.map_append, List.map_cons, List.map_nil, ← List.append_assoc,
      List.mem_append, List.mem_singleton] at member
    rcases member with older | newest
    · have bound := heap.below address (List.mem_append.mpr older)
      omega
    · omega

theorem distinct_free {address : Nat} {freed keys : List Nat} (distinct : (freed ++ keys).Nodup)
    (live : address ∈ keys) :
    (freed ++ [address] ++ keys.filter (· ≠ address)).Nodup := by
  rw [List.append_assoc]
  rw [List.nodup_append] at distinct ⊢
  refine ⟨distinct.1, ?_, ?_⟩
  · simp only [List.singleton_append, List.nodup_cons]
    exact ⟨by simp, distinct.2.1.filter _⟩
  · intro other freedBefore kept member
    rcases List.mem_append.mp member with last | later
    · rw [List.mem_singleton.mp last]
      exact distinct.2.2 other freedBefore address live
    · exact distinct.2.2 other freedBefore kept (List.mem_filter.mp later).1

def free (address : Nat) (heap : Heap α) : Option (Heap α) :=
  if live : heap.Live address then
    some
      { cells := AssocMap.erase address heap.cells
        next := heap.next
        freed := heap.freed ++ [address]
        distinct := by
          rw [AssocMap.keys_erase]
          exact distinct_free heap.distinct live
        below := by
          intro other member
          rw [AssocMap.keys_erase, List.append_assoc, List.mem_append, List.mem_append,
            List.mem_singleton, List.mem_filter] at member
          apply heap.below
          rcases member with freed | same | kept
          · exact List.mem_append_left _ freed
          · exact List.mem_append_right _ (same ▸ live)
          · exact List.mem_append_right _ kept.1 }
  else none

def store (address : Nat) (value : α) (heap : Heap α) : Heap α :=
  match found : AssocMap.find address heap.cells with
  | none => heap
  | some _ =>
      { heap with
        cells := AssocMap.insert address value heap.cells
        distinct := by
          rw [AssocMap.keys_insert_of_find found]
          exact heap.distinct
        below := by
          rw [AssocMap.keys_insert_of_find found]
          exact heap.below }

theorem live_iff_load {address : Nat} {heap : Heap α} :
    heap.Live address ↔ ∃ value, heap.load address = some value := by
  rw [Live, ← AssocMap.find_isSome_iff, Option.isSome_iff_exists]
  rfl

theorem live_below {address : Nat} {heap : Heap α} (live : heap.Live address) :
    address < heap.next :=
  heap.below address (List.mem_append_right _ live)

theorem not_live_of_freed {address : Nat} {heap : Heap α} (freed : address ∈ heap.freed) :
    ¬ heap.Live address := by
  intro live
  exact (List.nodup_append.mp heap.distinct).2.2 address freed address live rfl

theorem freed_nodup (heap : Heap α) : heap.freed.Nodup :=
  (List.nodup_append.mp heap.distinct).1

@[simp] theorem freed_allocate (value : α) (heap : Heap α) :
    (heap.allocate value).freed = heap.freed := rfl

theorem live_allocate {address : Nat} {value : α} {heap : Heap α} :
    (heap.allocate value).Live address ↔ heap.Live address ∨ address = heap.next := by
  simp [Live, allocate]

theorem load_of_allocate {address : Nat} {value stored : α} {heap : Heap α}
    (found : (heap.allocate value).load address = some stored) :
    heap.load address = some stored ∨ stored = value := by
  have found' : AssocMap.find address (heap.cells ++ [(heap.next, value)]) = some stored := found
  rw [AssocMap.find_append, Option.or_eq_some_iff] at found'
  rcases found' with older | ⟨_, newest⟩
  · exact .inl older
  · simp only [AssocMap.find] at newest
    split at newest
    · exact .inr (Option.some.inj newest).symm
    · simp at newest

theorem load_allocate_old {address : Nat} {value stored : α} {heap : Heap α}
    (found : heap.load address = some stored) :
    (heap.allocate value).load address = some stored := by
  have found' : AssocMap.find address heap.cells = some stored := found
  simp [load, allocate, AssocMap.find_append, found']

theorem load_next (heap : Heap α) : heap.load heap.next = none := by
  rw [load, AssocMap.find_eq_none_iff]
  exact fun live => Nat.lt_irrefl _ (live_below live)

theorem load_allocate_new (value : α) (heap : Heap α) :
    (heap.allocate value).load heap.next = some value := by
  have absent : AssocMap.find heap.next heap.cells = none := heap.load_next
  simp [load, allocate, AssocMap.find_append, absent, AssocMap.find]

theorem load_allocate_other {address : Nat} (value : α) {heap : Heap α}
    (different : address ≠ heap.next) :
    (heap.allocate value).load address = heap.load address := by
  simp [load, allocate, AssocMap.find_append, AssocMap.find, different.symm]

theorem free_isSome {address : Nat} {heap : Heap α} (live : heap.Live address) :
    ∃ after, heap.free address = some after := by
  simp [free, live]

theorem free_spec {address : Nat} {heap after : Heap α} (result : heap.free address = some after) :
    heap.Live address ∧ after.freed = heap.freed ++ [address] ∧ after.next = heap.next ∧
      ∀ other, after.load other = if other = address then none else heap.load other := by
  unfold free at result
  split at result
  · rename_i live
    simp only [Option.some.injEq] at result
    subst result
    refine ⟨live, rfl, rfl, ?_⟩
    intro other
    exact AssocMap.find_erase address other heap.cells
  · simp at result

theorem live_free {address other : Nat} {heap after : Heap α}
    (result : heap.free address = some after) :
    after.Live other ↔ heap.Live other ∧ other ≠ address := by
  obtain ⟨_, _, _, loads⟩ := free_spec result
  rw [live_iff_load, live_iff_load, loads]
  by_cases same : other = address <;> simp [same]

theorem store_of_load {address : Nat} {value : α} {heap : Heap α}
    (found : heap.load address = some value) : heap.store address value = heap := by
  have kept := AssocMap.insert_of_find found
  unfold store
  split
  · rfl
  · cases heap
    simp only [mk.injEq, and_true]
    exact kept

end Heap
