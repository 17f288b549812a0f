import SocketEvents.Admission
import SocketEvents.WebsocketServerCore

/-!
What a websocket session replies to each frame, and when the reply tells what became of it.
-/

namespace SocketEvents

open Execution

namespace WebsocketServer

section
variable (platform : Platform) (parse : CString → Except Exception Json)
  (asBuffer : ServerResponse → Except Exception CString) (config : Config)

def FailsAuthentication (frame : WebsocketFrame) : Prop :=
  frame.isText = true ∧ ∃ json, parse frame.bytes = .ok json ∧
    ¬ Authorised config.tokens json ∧ ¬ TokenMistyped config.tokens json

inductive Answered (start : WebsocketSession) : List WebsocketFrame → WebsocketSession → Prop
  | nil : Answered start [] start
  | snoc {front : List WebsocketFrame} {frame : WebsocketFrame} {before after : WebsocketSession} :
      Answered start front before →
      (answerFrame platform parse asBuffer frame).run before = .ok true after →
      Answered start (front ++ [frame]) after

/-- One reply to the frame, which says whether the frame enqueued an event. The loop goes on
unless authentication failed. -/
def AnswersOnce (frame : WebsocketFrame) (before : WebsocketSession) : Prop :=
  ∃ continues after response,
    (answerFrame platform parse asBuffer frame).run before = .ok continues after ∧
    after.responses = before.responses ++ [response] ∧
    (response.success = true ↔ ∃ message, after.server.store.eventQueue.enqueued =
      before.server.store.eventQueue.enqueued ++ [message]) ∧
    (continues = false ↔ FailsAuthentication parse config frame)

def UpToFailure (frames answered : List WebsocketFrame) : Prop :=
  (answered = frames ∧ ∀ frame ∈ frames, ¬ FailsAuthentication parse config frame) ∨
    ∃ front frame back, frames = front ++ frame :: back ∧ answered = front ++ [frame] ∧
      (∀ earlier ∈ front, ¬ FailsAuthentication parse config earlier) ∧
      FailsAuthentication parse config frame

structure TruthfulReplies (start : WebsocketSession) (frames : List WebsocketFrame) : Prop where
  answers : ∀ front frame back, frames = front ++ frame :: back →
    (∀ earlier ∈ front, ¬ FailsAuthentication parse config earlier) →
    ∃ before, Answered platform parse asBuffer start front before ∧
      AnswersOnce platform parse asBuffer config frame before
  ends : ∃ answered after, UpToFailure parse config frames answered ∧
    (serverRun platform parse asBuffer { frames }).run start = .ok () after ∧
    after.responses.length = start.responses.length + answered.length

/-- Every text frame of these is a message that is refused for its token or enqueued, and its
buffer has room for the byte after it. -/
inductive FrameHandled (frame : WebsocketFrame) : Prop
  | binary : frame.isText = false → FrameHandled frame
  | refused : frame.room = true → FailsAuthentication parse config frame → FrameHandled frame
  | admitted (json : Json) : frame.isText = true → frame.room = true →
      parse frame.bytes = .ok json → Admissible platform config json → FrameHandled frame

end

section
variable {platform : Platform} {parse : CString → Except Exception Json}
  {asBuffer : ServerResponse → Except Exception CString} {config : Config}

theorem run_write {frame : WebsocketFrame} (writes : frame.writeThrows = false)
    (yields : ∀ response, ∃ bytes, asBuffer response = .ok bytes) (response : ServerResponse)
    (session : WebsocketSession) :
    (write asBuffer frame response).run session =
      .ok () { session with responses := session.responses ++ [response] } := by
  obtain ⟨bytes, same⟩ := yields response
  simp [write, same, writes]

theorem run_onSessionStore {α : Type} (call : Exec Exception Defect EventStore α)
    (session : WebsocketSession) :
    (onSessionStore call).run session =
      match call.run session.server.store with
      | .ok value store => .ok value { session with server := { session.server with store } }
      | .error fault store =>
          .error fault { session with server := { session.server with store } } := rfl

theorem run_answerFrame_text {frame : WebsocketFrame} {session : WebsocketSession} {json : Json}
    {result : EStateM.Result (Fault Exception Defect) EventStore MessageParseStatus}
    (isText : frame.isText = true) (room : frame.room = true) (writes : frame.writeThrows = false)
    (yields : ∀ response, ∃ bytes, asBuffer response = .ok bytes)
    (configured : session.server.config = some config) (parsed : parse frame.bytes = .ok json)
    (ran : (parseMessageAndEnqueue platform (some config) json).run session.server.store = result) :
    (answerFrame platform parse asBuffer frame).run session =
      match result with
      | .error fault store =>
          .error fault { session with server := { session.server with store } }
      | .ok .authFailed store =>
          .ok false { server := { session.server with running := false, store }
                      responses := session.responses ++
                        [{ success := false, message := text "Auth failed" }] }
      | .ok _ store =>
          .ok true { server := { session.server with store }
                     responses := session.responses ++ [{ success := true }] } := by
  simp only [answerFrame, isText, if_true, terminate, room, pure_bind, parsed, EStateM.run_bind,
    run_liftThrow_ok, EStateM.run_get, configured, run_onSessionStore, ran]
  cases result with
  | error fault store => rfl
  | ok status store =>
      cases status <;> simp [replyTo, run_write writes yields]

theorem failsAuthentication_iff {frame : WebsocketFrame} {json : Json}
    (isText : frame.isText = true) (parsed : parse frame.bytes = .ok json) :
    FailsAuthentication parse config frame ↔
      ¬ Authorised config.tokens json ∧ ¬ TokenMistyped config.tokens json := by
  simp [FailsAuthentication, isText, parsed]

theorem frameHandled_iff {frame : WebsocketFrame} {json : Json} (isText : frame.isText = true)
    (room : frame.room = true) (parsed : parse frame.bytes = .ok json) :
    FrameHandled platform parse config frame ↔
      FailsAuthentication parse config frame ∨ Admissible platform config json := by
  constructor
  · intro handled
    cases handled with
    | binary other => simp [isText] at other
    | refused _ fails => exact .inl fails
    | admitted json' _ _ parsed' admissible =>
        rw [parsed] at parsed'
        cases parsed'
        exact .inr admissible
  · rintro (fails | admissible)
    · exact .refused room fails
    · exact .admitted json isText room parsed admissible

theorem not_answersOnce_of_error {frame : WebsocketFrame} {session : WebsocketSession}
    {fault : Fault Exception Defect} {after : WebsocketSession}
    (failed : (answerFrame platform parse asBuffer frame).run session = .error fault after) :
    ¬ AnswersOnce platform parse asBuffer config frame session := by
  rintro ⟨_, _, _, ran, _⟩
  simp [failed] at ran

theorem answersOnce_text_iff {frame : WebsocketFrame} {session : WebsocketSession} {json : Json}
    (isText : frame.isText = true) (room : frame.room = true) (writes : frame.writeThrows = false)
    (yields : ∀ response, ∃ bytes, asBuffer response = .ok bytes)
    (configured : session.server.config = some config) (parsed : parse frame.bytes = .ok json) :
    AnswersOnce platform parse asBuffer config frame session ↔
      FailsAuthentication parse config frame ∨ Admissible platform config json := by
  have outcome := parseMessage_outcome platform config json session.server.store
  have verdict := outcome.sent_iff
  generalize ran : (parseMessageAndEnqueue platform (some config) json).run
    session.server.store = result at outcome verdict
  have looped := run_answerFrame_text isText room writes yields configured parsed ran
  have failing : FailsAuthentication parse config frame ↔ _ := failsAuthentication_iff isText parsed
  rcases verdict with ⟨name, args, admissible, _, _, rfl⟩ | ⟨refused, _⟩
  · have passes : ¬ FailsAuthentication parse config frame :=
      fun fails => (failing.mp fails).1 admissible.authorised
    refine ⟨fun _ => .inr admissible, fun _ => ⟨true, _, { success := true }, looped, rfl, ?_, ?_⟩⟩
    · simp [EventStore.send, ConcurrentQueue.enqueue]
    · simp [passes]
  · simp only [refused, or_false]
    cases outcome with
    | sent name args authorised named present built =>
        exact (refused ⟨authorised, ⟨name, named⟩, present, ⟨args, built⟩⟩).elim
    | authFailed unauthorised typed =>
        have fails := failing.mpr ⟨unauthorised, typed⟩
        refine ⟨fun _ => fails, fun _ => ⟨false, _, _, looped, rfl, ?_, ?_⟩⟩
        · simp
        · simp [fails]
    | incomplete authorised missing =>
        -- the status is PARSE_ERROR, and the reply says success
        have passes : ¬ FailsAuthentication parse config frame :=
          fun fails => (failing.mp fails).1 authorised
        refine ⟨?_, fun fails => (passes fails).elim⟩
        rintro ⟨continues, after, response, looped', appended, truthful, _⟩
        rw [looped] at looped'
        simp only [EStateM.Result.ok.injEq] at looped'
        obtain ⟨_, rfl⟩ := looped'
        simp only [List.append_cancel_left_eq, List.cons.injEq, and_true] at appended
        subst appended
        simp at truthful
    | tokenThrew mistyped =>
        exact ⟨fun once => (not_answersOnce_of_error looped once).elim,
          fun fails => ((failing.mp fails).2 mistyped).elim⟩
    | eventThrew authorised _ _ _ =>
        exact ⟨fun once => (not_answersOnce_of_error looped once).elim,
          fun fails => ((failing.mp fails).1 authorised).elim⟩
    | argsFailed _ _ authorised _ _ _ =>
        exact ⟨fun once => (not_answersOnce_of_error looped once).elim,
          fun fails => ((failing.mp fails).1 authorised).elim⟩

theorem answersOnce_iff {frame : WebsocketFrame} {session : WebsocketSession}
    (writes : frame.writeThrows = false)
    (yields : ∀ response, ∃ bytes, asBuffer response = .ok bytes)
    (configured : session.server.config = some config) :
    AnswersOnce platform parse asBuffer config frame session ↔
      FrameHandled platform parse config frame := by
  cases isText : frame.isText with
  | false =>
      have looped : (answerFrame platform parse asBuffer frame).run session =
          .ok true { session with responses := session.responses ++
            [{ success := false, message := text "Malformed message" }] } := by
        simp only [answerFrame, isText, Bool.false_eq_true, if_false, EStateM.run_bind,
          run_write writes yields]
        rfl
      refine ⟨fun _ => .binary isText, fun _ => ⟨true, _, _, looped, rfl, ?_, ?_⟩⟩
      · simp
      · simp [FailsAuthentication, isText]
  | true =>
      have binary : ¬ frame.isText = false := by simp [isText]
      cases room : frame.room with
      | false =>
          have crashed : (answerFrame platform parse asBuffer frame).run session =
              .error (.undefined .arrayOverrun) session := by
            simp [answerFrame, isText, terminate, room]
          refine ⟨fun once => (not_answersOnce_of_error crashed once).elim, fun handled => ?_⟩
          cases handled with
          | binary other => exact (binary other).elim
          | refused spare _ => simp [room] at spare
          | admitted _ _ spare _ _ => simp [room] at spare
      | true =>
          cases parsed : parse frame.bytes with
          | error exception =>
              have threw : (answerFrame platform parse asBuffer frame).run session =
                  .error (.thrown exception) session := by
                simp [answerFrame, isText, terminate, room, parsed]
              refine ⟨fun once => (not_answersOnce_of_error threw once).elim, fun handled => ?_⟩
              cases handled with
              | binary other => exact (binary other).elim
              | refused _ fails =>
                  obtain ⟨_, json, same, _⟩ := fails
                  simp [parsed] at same
              | admitted json _ _ same _ => simp [parsed] at same
          | ok json =>
              rw [frameHandled_iff isText room parsed]
              exact answersOnce_text_iff isText room writes yields configured parsed

theorem answerFrame_config {frame : WebsocketFrame} {before after : WebsocketSession}
    {continues : Bool} (writes : frame.writeThrows = false)
    (yields : ∀ response, ∃ bytes, asBuffer response = .ok bytes)
    (configured : before.server.config = some config)
    (ran : (answerFrame platform parse asBuffer frame).run before = .ok continues after) :
    after.server.config = some config := by
  cases isText : frame.isText with
  | false =>
      simp only [answerFrame, isText, Bool.false_eq_true, if_false, EStateM.run_bind,
        run_write writes yields, EStateM.run_pure, EStateM.Result.ok.injEq] at ran
      rw [← ran.2]
      exact configured
  | true =>
      cases room : frame.room with
      | false => simp [answerFrame, isText, terminate, room] at ran
      | true =>
          cases parsed : parse frame.bytes with
          | error exception => simp [answerFrame, isText, terminate, room, parsed] at ran
          | ok json =>
              rw [run_answerFrame_text isText room writes yields configured parsed rfl] at ran
              split at ran
              · simp at ran
              all_goals
                simp only [EStateM.Result.ok.injEq] at ran
                rw [← ran.2]
                exact configured

theorem answered_cons {start middle last : WebsocketSession} {frame : WebsocketFrame}
    {front : List WebsocketFrame}
    (first : (answerFrame platform parse asBuffer frame).run start = .ok true middle)
    (answered : Answered platform parse asBuffer middle front last) :
    Answered platform parse asBuffer start (frame :: front) last := by
  induction answered with
  | nil =>
      have unread : Answered platform parse asBuffer start [] start := .nil
      exact unread.snoc first
  | snoc _ stepped ih => exact ih.snoc stepped

theorem answered_config {start last : WebsocketSession} {front : List WebsocketFrame}
    (writes : ∀ frame ∈ front, frame.writeThrows = false)
    (yields : ∀ response, ∃ bytes, asBuffer response = .ok bytes)
    (configured : start.server.config = some config)
    (answered : Answered platform parse asBuffer start front last) :
    last.server.config = some config := by
  induction answered with
  | nil => exact configured
  | snoc _ stepped ih =>
      have earlier := ih fun frame member => writes frame (List.mem_append_left _ member)
      exact answerFrame_config (writes _ (by simp)) yields earlier stepped

def LoopEnds (platform : Platform) (parse : CString → Except Exception Json)
    (asBuffer : ServerResponse → Except Exception CString) (config : Config)
    (start : WebsocketSession) (frames : List WebsocketFrame) : Prop :=
  ∃ answered after, UpToFailure parse config frames answered ∧
    ((messageLoop platform parse asBuffer frames).run start = .ok () after ∨
      (messageLoop platform parse asBuffer frames).run start =
        .error (.thrown .systemError) after) ∧
    after.responses.length = start.responses.length + answered.length

theorem serverRun_of_loopEnds {start : WebsocketSession} {frames : List WebsocketFrame}
    (ends : LoopEnds platform parse asBuffer config start frames) :
    ∃ answered after, UpToFailure parse config frames answered ∧
      (serverRun platform parse asBuffer { frames }).run start = .ok () after ∧
      after.responses.length = start.responses.length + answered.length := by
  obtain ⟨answered, after, upTo, ran, count⟩ := ends
  refine ⟨answered, after, upTo, ?_, count⟩
  rw [serverRun, run_guarded]
  simp only [Bool.false_eq_true, if_false]
  rcases ran with returned | closed
  · rw [returned]
  · rw [closed]
    rfl

theorem UpToFailure.cons {frame : WebsocketFrame} {rest answered : List WebsocketFrame}
    (passes : ¬ FailsAuthentication parse config frame)
    (upTo : UpToFailure parse config rest answered) :
    UpToFailure parse config (frame :: rest) (frame :: answered) := by
  rcases upTo with ⟨rfl, none⟩ | ⟨front, last, back, rfl, rfl, earlier, fails⟩
  · refine .inl ⟨rfl, ?_⟩
    simpa [passes] using none
  · refine .inr ⟨frame :: front, last, back, rfl, rfl, ?_, fails⟩
    simpa [passes] using earlier

theorem answers_cons {start : WebsocketSession} {frame : WebsocketFrame}
    {rest : List WebsocketFrame} (once : AnswersOnce platform parse asBuffer config frame start)
    (later : ∀ front frame' back, rest = front ++ frame' :: back →
      (∀ earlier ∈ frame :: front, ¬ FailsAuthentication parse config earlier) →
      ∃ before, Answered platform parse asBuffer start (frame :: front) before ∧
        AnswersOnce platform parse asBuffer config frame' before) :
    ∀ front frame' back, frame :: rest = front ++ frame' :: back →
      (∀ earlier ∈ front, ¬ FailsAuthentication parse config earlier) →
      ∃ before, Answered platform parse asBuffer start front before ∧
        AnswersOnce platform parse asBuffer config frame' before := by
  intro front frame' back split passed
  cases front with
  | nil =>
      simp only [List.nil_append, List.cons.injEq] at split
      exact ⟨start, .nil, split.1 ▸ once⟩
  | cons first front =>
      simp only [List.cons_append, List.cons.injEq] at split
      obtain ⟨rfl, split⟩ := split
      exact later front frame' back split passed

theorem replies_of_handled {start : WebsocketSession} {frames : List WebsocketFrame}
    (writes : ∀ frame ∈ frames, frame.writeThrows = false)
    (yields : ∀ response, ∃ bytes, asBuffer response = .ok bytes)
    (configured : start.server.config = some config)
    (handled : ∀ front frame back, frames = front ++ frame :: back →
      (∀ earlier ∈ front, ¬ FailsAuthentication parse config earlier) →
      FrameHandled platform parse config frame) :
    (∀ front frame back, frames = front ++ frame :: back →
      (∀ earlier ∈ front, ¬ FailsAuthentication parse config earlier) →
      ∃ before, Answered platform parse asBuffer start front before ∧
        AnswersOnce platform parse asBuffer config frame before) ∧
    LoopEnds platform parse asBuffer config start frames := by
  induction frames generalizing start with
  | nil =>
      exact ⟨by simp, [], start, .inl ⟨rfl, by simp⟩, .inr rfl, rfl⟩
  | cons frame rest ih =>
      have once : AnswersOnce platform parse asBuffer config frame start :=
        (answersOnce_iff (writes frame (by simp)) yields configured).mpr
          (handled [] frame rest rfl (by simp))
      obtain ⟨continues, middle, response, ran, appended, _, goesOn⟩ := id once
      have oneMore : middle.responses.length = start.responses.length + 1 := by simp [appended]
      by_cases fails : FailsAuthentication parse config frame
      · -- the loop stops here, and nothing is asked of what follows
        have stops := goesOn.mpr fails
        subst stops
        refine ⟨answers_cons once fun _ _ _ _ passed => (passed frame (by simp) fails).elim,
          [frame], middle, .inr ⟨[], frame, rest, rfl, rfl, by simp, fails⟩, .inl ?_, oneMore⟩
        simp [messageLoop, ran]
      · have continued : continues = true := by
          cases continues with
          | false => exact (fails (goesOn.mp rfl)).elim
          | true => rfl
        subst continued
        obtain ⟨answers, answered, after, upTo, ended, count⟩ :=
          ih (fun frame member => writes frame (by simp [member]))
            (answerFrame_config (writes frame (by simp)) yields configured ran)
            (fun front frame' back split passed =>
              handled (frame :: front) frame' back (by simp [split])
                (by simpa [fails] using passed))
        refine ⟨answers_cons once ?_, frame :: answered, after, upTo.cons fails, ?_, ?_⟩
        · intro front frame' back split passed
          obtain ⟨before, reached, once'⟩ := answers front frame' back split
            (fun earlier member => passed earlier (List.mem_cons_of_mem _ member))
          exact ⟨before, answered_cons ran reached, once'⟩
        · simpa [messageLoop, ran] using ended
        · simp only [count, oneMore, List.length_cons]
          omega

theorem truthfulReplies_iff {start : WebsocketSession} {frames : List WebsocketFrame}
    (writes : ∀ frame ∈ frames, frame.writeThrows = false)
    (yields : ∀ response, ∃ bytes, asBuffer response = .ok bytes)
    (configured : start.server.config = some config) :
    TruthfulReplies platform parse asBuffer config start frames ↔
      ∀ front frame back, frames = front ++ frame :: back →
        (∀ earlier ∈ front, ¬ FailsAuthentication parse config earlier) →
        FrameHandled platform parse config frame := by
  constructor
  · intro truthful front frame back split passed
    obtain ⟨before, reached, once⟩ := truthful.answers front frame back split passed
    have member : frame ∈ frames := by simp [split]
    refine (answersOnce_iff (writes frame member) yields ?_).mp once
    exact answered_config (fun earlier inside => writes earlier (by simp [split, inside])) yields
      configured reached
  · intro handled
    obtain ⟨answers, ends⟩ := replies_of_handled writes yields configured handled
    exact ⟨answers, serverRun_of_loopEnds ends⟩

end

def parseEmptyObject (message : CString) : Except Exception Json :=
  if message = text "\x7b\x7d" then .ok (.object []) else .error .parseError

def emptyObjectFrame : WebsocketFrame where
  isText := true
  bytes := text "\x7b\x7d"

def openSession : WebsocketSession where
  server := .construct {}

def tokenFrame : WebsocketFrame where
  isText := true
  bytes := text "m"

theorem truthfulReplies_iff_tokenFrame :
    TruthfulReplies .x64 (fun _ => .ok tokenMessage) (fun _ => .ok []) {} openSession
      [{ isText := false, bytes := [] }, tokenFrame] := by
  refine (truthfulReplies_iff (by simp [tokenFrame]) (fun _ => ⟨[], rfl⟩) rfl).mpr ?_
  intro front frame back split _
  have member : frame ∈ [{ isText := false, bytes := [] }, tokenFrame] := by simp [split]
  simp only [List.mem_cons, List.not_mem_nil, or_false] at member
  rcases member with rfl | rfl
  · exact .binary rfl
  · exact .admitted tokenMessage rfl rfl rfl ⟨.inl rfl, ⟨_, rfl⟩, rfl, ⟨_, rfl⟩⟩

/-- A message without `event` and `args` is answered with success. -/
theorem emptyObject_untruthful : ¬ ∀ platform parse asBuffer config start frames,
    (∀ frame ∈ frames, frame.writeThrows = false) →
    (∀ response, ∃ bytes, asBuffer response = .ok bytes) → start.server.config = some config →
      TruthfulReplies platform parse asBuffer config start frames := by
  intro truthful
  have yields : ∀ response : ServerResponse, ∃ bytes : CString,
      (Except.ok [] : Except Exception CString) = .ok bytes := fun _ => ⟨[], rfl⟩
  obtain ⟨before, reached, once⟩ := (truthful .x64 parseEmptyObject (fun _ => .ok []) {}
    openSession [emptyObjectFrame] (by simp [emptyObjectFrame]) yields rfl).answers
      [] emptyObjectFrame [] rfl (by simp)
  have configured : before.server.config = some {} := answered_config (by simp) yields rfl reached
  have parsed : parseEmptyObject emptyObjectFrame.bytes = .ok (.object []) := rfl
  rcases (answersOnce_text_iff rfl rfl rfl yields configured parsed).mp once
    with ⟨_, _, _, refused, _⟩ | admissible
  · exact refused (.inl rfl)
  · obtain ⟨name, named⟩ := admissible.named
    simp [Json.member, AssocMap.find] at named

end WebsocketServer

end SocketEvents
