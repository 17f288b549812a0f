import SocketEvents.AssocMap
import SocketEvents.Transition

/-!
A mailbox of named events. The events wait in order, and each is settled once: it is handed out
under a handle that is not open, or dropped. Whoever has an open handle asks questions of the
payload, which nobody changes.
-/

namespace Mailbox

open Transition

structure Event (ν π : Type) where
  name : ν
  payload : π

structure State (ν π η κ ρ : Type) where
  waiting : List (Event ν π) := []
  inHand : Option (Event ν π) := none
  settled : List (Event ν π × Option η) := []
  opened : List (η × Event ν π) := []
  answers : List (η × κ × Option ρ) := []

variable {ν π η κ ρ : Type}

def State.published (state : State ν π η κ ρ) : List (Event ν π) :=
  state.settled.map Prod.fst ++ state.inHand.toList ++ state.waiting

section
variable (admitted : Event ν π → Prop) (eval : π → κ → Option ρ)

inductive Step [DecidableEq η] (state : State ν π η κ ρ) : State ν π η κ ρ → Prop
  | publish (event : Event ν π) : admitted event →
      Step state { state with waiting := state.waiting ++ [event] }
  | take (event : Event ν π) (rest : List (Event ν π)) : state.inHand = none →
      state.waiting = event :: rest →
      Step state { state with waiting := rest, inHand := some event }
  | handOut (event : Event ν π) (handle : η) : state.inHand = some event →
      AssocMap.find handle state.opened = none →
      Step state { state with
        inHand := none
        settled := state.settled ++ [(event, some handle)]
        opened := state.opened ++ [(handle, event)] }
  | drop (event : Event ν π) : state.inHand = some event →
      Step state { state with inHand := none, settled := state.settled ++ [(event, none)] }
  | close (handle : η) : Step state { state with opened := AssocMap.erase handle state.opened }
  | answer (handle : η) (event : Event ν π) (query : κ) (value : ρ) :
      AssocMap.find handle state.opened = some event → eval event.payload query = some value →
      Step state { state with answers := state.answers ++ [(handle, query, some value)] }
  | refuse (handle : η) (query : κ) : AssocMap.find handle state.opened = none →
      Step state { state with answers := state.answers ++ [(handle, query, none)] }

structure Sound (state : State ν π η κ ρ) : Prop where
  admitted : ∀ event ∈ state.published, admitted event
  opened : ∀ handle event, (handle, event) ∈ state.opened → (event, some handle) ∈ state.settled
  answered : ∀ handle query value, (handle, query, some value) ∈ state.answers →
    ∃ event, (event, some handle) ∈ state.settled ∧ eval event.payload query = some value

end

section
variable {admitted : Event ν π → Prop} {eval : π → κ → Option ρ} {state : State ν π η κ ρ}

theorem sound_empty : Sound admitted eval ({} : State ν π η κ ρ) := by
  constructor <;> simp [State.published]

end

section
variable [DecidableEq η] {admitted : Event ν π → Prop} {eval : π → κ → Option ρ}
  {state after : State ν π η κ ρ} {path : List (State ν π η κ ρ)}

theorem Step.published (step : Step admitted eval state after) :
    after.published = state.published ∨
      ∃ event, admitted event ∧ after.published = state.published ++ [event] := by
  cases step with
  | publish event fits => exact .inr ⟨event, fits, by simp [State.published]⟩
  | take event rest free first => exact .inl (by simp [State.published, free, first])
  | handOut event handle held fresh => exact .inl (by simp [State.published, held])
  | drop event held => exact .inl (by simp [State.published, held])
  | close handle => exact .inl rfl
  | answer handle event query value found evaluated => exact .inl rfl
  | refuse handle query absent => exact .inl rfl

theorem Step.sound (step : Step admitted eval state after) (sound : Sound admitted eval state) :
    Sound admitted eval after := by
  have everyone : ∀ event ∈ after.published, admitted event := by
    rcases step.published with same | ⟨event, fits, same⟩
    · rw [same]
      exact sound.admitted
    · rw [same]
      intro other member
      rcases List.mem_append.mp member with older | newest
      · exact sound.admitted other older
      · exact List.mem_singleton.mp newest ▸ fits
  cases step with
  | publish event fits => exact ⟨everyone, sound.opened, sound.answered⟩
  | take event rest free first => exact ⟨everyone, sound.opened, sound.answered⟩
  | handOut event handle held fresh =>
      refine ⟨everyone, ?_, ?_⟩
      · intro other event' member
        rcases List.mem_append.mp member with older | newest
        · exact List.mem_append_left _ (sound.opened other event' older)
        · simp only [List.mem_singleton, Prod.mk.injEq] at newest
          obtain ⟨rfl, rfl⟩ := newest
          simp
      · intro other query value member
        obtain ⟨event', settled, evaluated⟩ := sound.answered other query value member
        exact ⟨event', List.mem_append_left _ settled, evaluated⟩
  | drop event held =>
      refine ⟨everyone, ?_, ?_⟩
      · intro handle event' member
        exact List.mem_append_left _ (sound.opened handle event' member)
      · intro handle query value member
        obtain ⟨event', settled, evaluated⟩ := sound.answered handle query value member
        exact ⟨event', List.mem_append_left _ settled, evaluated⟩
  | close handle =>
      refine ⟨everyone, ?_, sound.answered⟩
      intro other event member
      simp only [AssocMap.erase_eq_filter] at member
      exact sound.opened other event (List.mem_filter.mp member).1
  | answer handle event query value found evaluated =>
      refine ⟨everyone, sound.opened, ?_⟩
      intro other query' value' member
      rcases List.mem_append.mp member with older | newest
      · exact sound.answered other query' value' older
      · simp only [List.mem_singleton, Prod.mk.injEq, Option.some.injEq] at newest
        obtain ⟨rfl, rfl, rfl⟩ := newest
        exact ⟨event, sound.opened other event (AssocMap.mem_of_find found), evaluated⟩
  | refuse handle query absent =>
      refine ⟨everyone, sound.opened, ?_⟩
      intro other query' value' member
      rcases List.mem_append.mp member with older | newest
      · exact sound.answered other query' value' older
      · simp at newest

theorem sound_of_run (run : Run (Step admitted eval) {} path state) :
    Sound admitted eval state :=
  run.invariant sound_empty fun sound step => step.sound sound

end

end Mailbox
