import SocketEvents.WebsocketReplies

/-!
The bytes of a reply. `AsBuffer` asks an object for a string, so no reply is ever encoded, and
the loop does not get through a frame it would reply to.
-/

namespace SocketEvents

open Execution

def ResponseRoundTrip (parse : CString → Except Exception Json) (response : ServerResponse) :
    Prop :=
  ∃ bytes, response.asBuffer = .ok bytes ∧ parse bytes = .ok response.toJson

theorem asBuffer_throws (response : ServerResponse) :
    response.asBuffer = .error (.typeError 302) := rfl

theorem never_responseRoundTrip (parse : CString → Except Exception Json)
    (response : ServerResponse) : ¬ ResponseRoundTrip parse response := by
  rintro ⟨bytes, encoded, _⟩
  rw [asBuffer_throws] at encoded
  cases encoded

theorem success_unencoded : ¬ ∀ parse response, ResponseRoundTrip parse response := by
  intro all
  obtain ⟨bytes, encoded, _⟩ := all (fun _ => .ok .null) { success := true }
  rw [asBuffer_throws] at encoded
  cases encoded

namespace WebsocketServer

/-- The call faults, and no reply has gone out by then. -/
def Unanswered {α : Type} (call : Exec Exception Defect WebsocketSession α) : Prop :=
  ∀ session, ∃ fault after, call.run session = .error fault after ∧
    after.responses = session.responses

section
variable {α β : Type} {call : Exec Exception Defect WebsocketSession α}
  {next : α → Exec Exception Defect WebsocketSession β}

theorem Unanswered.bind (first : Unanswered call) : Unanswered (call >>= next) := by
  intro session
  obtain ⟨fault, after, ran, same⟩ := first session
  exact ⟨fault, after, by rw [EStateM.run_bind, ran], same⟩

theorem unanswered_after
    (silent : ∀ session, (resultState (call.run session)).responses = session.responses)
    (second : ∀ value, Unanswered (next value)) : Unanswered (call >>= next) := by
  intro session
  have kept := silent session
  rw [EStateM.run_bind]
  cases ran : call.run session with
  | ok value middle =>
      rw [ran] at kept
      obtain ⟨fault, after, ended, same⟩ := second value middle
      exact ⟨fault, after, ended, same.trans kept⟩
  | error fault after =>
      rw [ran] at kept
      exact ⟨fault, after, rfl, kept⟩

end

section
variable {platform : Platform} {parse : CString → Except Exception Json}

theorem write_unanswered (frame : WebsocketFrame) (response : ServerResponse) :
    Unanswered (write ServerResponse.asBuffer frame response) :=
  fun session => ⟨.thrown (.typeError 302), session, rfl, rfl⟩

theorem answerFrame_unanswered (frame : WebsocketFrame) :
    Unanswered (answerFrame platform parse ServerResponse.asBuffer frame) := by
  unfold answerFrame
  split
  · refine unanswered_after ?_ fun message => unanswered_after ?_ fun json =>
      unanswered_after (fun _ => rfl) fun session => unanswered_after ?_ fun status => ?_
    · intro session
      unfold terminate
      split <;> rfl
    · intro session
      cases parse message <;> rfl
    · intro before
      rw [run_onSessionStore]
      cases (parseMessageAndEnqueue platform session.server.config json).run
        before.server.store <;> rfl
    · unfold replyTo
      split
      · exact (write_unanswered frame _).bind
      · exact (write_unanswered frame _).bind
  · exact (write_unanswered frame _).bind

end

end WebsocketServer

end SocketEvents
