import SocketEvents.HostMailbox

/-!
What plugins read, over every run of the host: always the tree of an event as it was decoded.
-/

namespace SocketEvents

open Execution Transition Mailbox

section
variable {platform : Platform} {sourceMod : SourceMod} {arriving : Option Config → Json → Prop}
  {config : Config} {system : System} {path : List System}

theorem reads_published
    (run : Run (HostStep platform sourceMod arriving) (System.start config) path system) :
    ∀ read ∈ system.extension.reads, ∀ result, read.result = some result →
      ∃ event, Published platform arriving event ∧
        (∃ message forward, (message, .executed forward) ∈ system.extension.outcomes ∧
          message.name = event.name) ∧
        readOf platform event.payload (read.native, read.key) = some result := by
  obtain ⟨_, mail, ran, _, mirrors⟩ := run.simulated
    (host_simulates platform sourceMod arriving config) (shows_start platform config)
  have sound := sound_of_run ran
  intro read member result returned
  have answered := List.mem_map_of_mem
    (f := fun read : ReadRecord => (read.handle, (read.native, read.key), read.result)) member
  rw [mirrors.answers, returned] at answered
  obtain ⟨event, settled, evaluated⟩ := sound.answered _ _ _ answered
  refine ⟨event, ?_, ?_, evaluated⟩
  · apply sound.admitted
    refine List.mem_append_left _ (List.mem_append_left _ ?_)
    exact List.mem_map_of_mem (f := Prod.fst) settled
  · have shown := List.mem_map_of_mem (f := fun entry => (entry.1.name, entry.2.isSome)) settled
    rw [← mirrors.settled] at shown
    obtain ⟨⟨message, outcome⟩, ended, same⟩ := List.mem_map.mp shown
    simp only [Option.isSome_some, Prod.mk.injEq] at same
    cases outcome with
    | executed forward => exact ⟨message, forward, ended, same.1⟩
    | _ => simp [Outcome.executes] at same

end

end SocketEvents
