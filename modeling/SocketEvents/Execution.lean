import SocketEvents.History
import Mathlib.Data.List.Forall2

/-! Outcomes of imperative calls that mutate a state: a value, a thrown exception, or
behaviour the language leaves undefined. The state survives an exception. -/

namespace Execution

inductive Fault (ε δ : Type)
  | thrown (exception : ε)
  | undefined (defect : δ)
  deriving DecidableEq, Repr

abbrev Exec (ε δ σ α : Type) := EStateM (Fault ε δ) σ α

section
variable {ε δ σ α β : Type}

def raise (exception : ε) : Exec ε δ σ α := throw (.thrown exception)

def undefined (defect : δ) : Exec ε δ σ α := throw (.undefined defect)

def liftThrow : Except ε α → Exec ε δ σ α
  | .ok value => pure value
  | .error exception => raise exception

def liftFault : Except (Fault ε δ) α → Exec ε δ σ α
  | .ok value => pure value
  | .error fault => throw fault

/-- A C++ `try` block whose handler catches the exceptions selected by `caught`. -/
def guarded (caught : ε → Bool) (body handler : Exec ε δ σ α) : Exec ε δ σ α :=
  tryCatch body fun fault =>
    match fault with
    | .thrown exception => if caught exception then handler else throw fault
    | .undefined _ => throw fault

@[simp] theorem run_map (f : α → β) (call : Exec ε δ σ α) (state : σ) :
    (f <$> call).run state =
      match call.run state with
      | .ok value after => .ok (f value) after
      | .error fault after => .error fault after := by
  simp only [EStateM.run, Functor.map, EStateM.map]
  cases call state <;> rfl

@[simp] theorem run_raise (exception : ε) (state : σ) :
    (raise exception : Exec ε δ σ α).run state = .error (.thrown exception) state := rfl

@[simp] theorem run_undefined (defect : δ) (state : σ) :
    (undefined defect : Exec ε δ σ α).run state = .error (.undefined defect) state := rfl

@[simp] theorem run_liftThrow_ok (value : α) (state : σ) :
    (liftThrow (.ok value) : Exec ε δ σ α).run state = .ok value state := rfl

@[simp] theorem run_liftThrow_error (exception : ε) (state : σ) :
    (liftThrow (.error exception) : Exec ε δ σ α).run state =
      .error (.thrown exception) state := rfl

@[simp] theorem run_liftFault_ok (value : α) (state : σ) :
    (liftFault (.ok value) : Exec ε δ σ α).run state = .ok value state := rfl

@[simp] theorem run_liftFault_error (fault : Fault ε δ) (state : σ) :
    (liftFault (.error fault) : Exec ε δ σ α).run state = .error fault state := rfl

theorem run_guarded (caught : ε → Bool) (body handler : Exec ε δ σ α) (state : σ) :
    (guarded caught body handler).run state =
      match body.run state with
      | .ok value after => .ok value after
      | .error (.thrown exception) after =>
          if caught exception then handler.run after else .error (.thrown exception) after
      | .error (.undefined defect) after => .error (.undefined defect) after := by
  simp only [guarded, EStateM.run, tryCatch, tryCatchThe, MonadExceptOf.tryCatch,
    EStateM.tryCatch]
  cases body state with
  | ok value after => rfl
  | error fault after =>
      cases fault with
      | thrown exception =>
          by_cases selected : caught exception = true
          · simp [selected, EStateM.dummyRestore, EStateM.Backtrackable.restore]
          · simp [selected]
            rfl
      | undefined defect => rfl

def resultState {ρ : Type} : EStateM.Result ρ σ α → σ
  | .ok _ state => state
  | .error _ state => state

theorem resultState_map (f : α → β) (call : Exec ε δ σ α) (state : σ) :
    resultState ((f <$> call).run state) = resultState (call.run state) := by
  rw [run_map]
  cases call.run state <;> rfl

theorem resultState_bind {call : Exec ε δ σ α} {state : σ}
    (kept : resultState (call.run state) = state) (next : α → Exec ε δ σ β) :
    resultState ((call >>= next).run state) = state ∨ ∃ value, call.run state = .ok value state ∧
      resultState ((call >>= next).run state) = resultState ((next value).run state) := by
  rw [EStateM.run_bind]
  cases ran : call.run state with
  | ok value after =>
      rw [ran] at kept
      have same : after = state := kept
      exact .inr ⟨value, by rw [same], by rw [same]⟩
  | error fault after =>
      rw [ran] at kept
      exact .inl kept

theorem resultState_guarded (caught : ε → Bool) (body handler : Exec ε δ σ α) (state : σ)
    (kept : ∀ state, resultState (handler.run state) = state) :
    resultState ((guarded caught body handler).run state) = resultState (body.run state) := by
  rw [run_guarded]
  cases body.run state with
  | ok value after => rfl
  | error fault after =>
      cases fault with
      | thrown exception =>
          by_cases selected : caught exception = true
          · simp only [selected, if_true]
            exact kept after
          · simp [selected, resultState]
      | undefined defect => rfl

def Preserves (holds : σ → Prop) (call : Exec ε δ σ α) : Prop :=
  ∀ state, holds state → holds (resultState (call.run state))

namespace Preserves

variable {holds : σ → Prop}

theorem of_state {call : Exec ε δ σ α}
    (kept : ∀ state, resultState (call.run state) = state) : Preserves holds call :=
  fun state initial => (kept state).symm ▸ initial

theorem pure (value : α) : Preserves holds (Pure.pure value : Exec ε δ σ α) :=
  of_state fun _ => rfl

theorem raise (exception : ε) : Preserves holds (Execution.raise exception : Exec ε δ σ α) :=
  of_state fun _ => rfl

theorem undefined (defect : δ) : Preserves holds (Execution.undefined defect : Exec ε δ σ α) :=
  of_state fun _ => rfl

theorem liftThrow (result : Except ε α) :
    Preserves holds (Execution.liftThrow result : Exec ε δ σ α) := by
  cases result with
  | ok value => exact pure value
  | error exception => exact raise exception

theorem modify {change : σ → σ} (keeps : ∀ state, holds state → holds (change state)) :
    Preserves holds (modify change : Exec ε δ σ Unit) := keeps

theorem bind {call : Exec ε δ σ α} {next : α → Exec ε δ σ β} (first : Preserves holds call)
    (second : ∀ value, Preserves holds (next value)) : Preserves holds (call >>= next) := by
  intro state initial
  have held := first state initial
  rw [EStateM.run_bind]
  cases ran : call.run state with
  | ok value after => exact second value after (by simpa [ran, resultState] using held)
  | error fault after => simpa [ran, resultState] using held

theorem forM {body : α → Exec ε δ σ Unit} {items : List α}
    (each : ∀ item ∈ items, Preserves holds (body item)) : Preserves holds (items.forM body) := by
  induction items with
  | nil => exact pure ()
  | cons item rest ih =>
      exact bind (each item (by simp)) fun _ => ih fun other member => each other (by simp [member])

theorem guarded {caught : ε → Bool} {body handler : Exec ε δ σ α} (first : Preserves holds body)
    (second : Preserves holds handler) :
    Preserves holds (Execution.guarded caught body handler) := by
  intro state initial
  have held := first state initial
  rw [run_guarded]
  cases ran : body.run state with
  | ok value after => simpa [ran, resultState] using held
  | error fault after =>
      rw [ran] at held
      cases fault with
      | thrown exception =>
          by_cases selected : caught exception = true
          · simp only [selected, if_true]
            exact second after held
          · simpa [selected] using held
      | undefined defect => exact held

end Preserves

def inState (outcome : Except (Fault ε δ) α) (state : σ) : EStateM.Result (Fault ε δ) σ α :=
  match outcome with
  | .ok value => .ok value state
  | .error fault => .error fault state

/-- The call changes nothing, its outcome depends on what `view` shows of the state alone, and
its value is of this kind. -/
def ReadsOnly {τ : Type} (view : σ → τ) (call : Exec ε δ σ α) (post : α → Prop) : Prop :=
  ∀ before after, view before = view after → ∃ outcome : Except (Fault ε δ) α,
    call.run before = inState outcome before ∧ call.run after = inState outcome after ∧
      ∀ value, outcome = .ok value → post value

namespace ReadsOnly

variable {τ : Type} {view : σ → τ}

theorem pure {post : α → Prop} {value : α} (holds : post value) :
    ReadsOnly view (Pure.pure value : Exec ε δ σ α) post :=
  fun _ _ _ => ⟨.ok value, rfl, rfl, fun _ same => Except.ok.inj same ▸ holds⟩

theorem undefined {post : α → Prop} (defect : δ) :
    ReadsOnly view (Execution.undefined defect : Exec ε δ σ α) post :=
  fun _ _ _ => ⟨.error (.undefined defect), rfl, rfl, by simp⟩

theorem raise {post : α → Prop} (exception : ε) :
    ReadsOnly view (Execution.raise exception : Exec ε δ σ α) post :=
  fun _ _ _ => ⟨.error (.thrown exception), rfl, rfl, by simp⟩

theorem bind {call : Exec ε δ σ α} {next : α → Exec ε δ σ β} {post : α → Prop}
    {post' : β → Prop} (first : ReadsOnly view call post)
    (second : ∀ value, post value → ReadsOnly view (next value) post') :
    ReadsOnly view (call >>= next) post' := by
  intro before after same
  obtain ⟨outcome, ranBefore, ranAfter, holds⟩ := first before after same
  cases outcome with
  | ok value =>
      obtain ⟨outcome', ranBefore', ranAfter', holds'⟩ :=
        second value (holds value rfl) before after same
      refine ⟨outcome', ?_, ?_, holds'⟩
      · rw [EStateM.run_bind, ranBefore]
        exact ranBefore'
      · rw [EStateM.run_bind, ranAfter]
        exact ranAfter'
  | error fault =>
      refine ⟨.error fault, ?_, ?_, by simp⟩
      · rw [EStateM.run_bind, ranBefore]
        rfl
      · rw [EStateM.run_bind, ranAfter]
        rfl

theorem of_run {call : Exec ε δ σ α} {post : α → Prop} (answer : τ → Except (Fault ε δ) α)
    (ran : ∀ state, call.run state = inState (answer (view state)) state)
    (holds : ∀ shown value, answer shown = .ok value → post value) :
    ReadsOnly view call post := by
  intro before after same
  exact ⟨answer (view before), ran before, same ▸ ran after, holds (view before)⟩

end ReadsOnly

/-- The call answers alike in every state, and changes every state alike. -/
def Blind (call : Exec ε δ σ α) : Prop :=
  ∃ (outcome : Except (Fault ε δ) α) (change : σ → σ),
    ∀ state, call.run state = inState outcome (change state)

namespace Blind

theorem pure (value : α) : Blind (Pure.pure value : Exec ε δ σ α) :=
  ⟨.ok value, id, fun _ => rfl⟩

theorem undefined (defect : δ) : Blind (Execution.undefined defect : Exec ε δ σ α) :=
  ⟨.error (.undefined defect), id, fun _ => rfl⟩

theorem liftFault (result : Except (Fault ε δ) α) :
    Blind (Execution.liftFault result : Exec ε δ σ α) :=
  ⟨result, id, fun _ => by cases result <;> rfl⟩

theorem liftThrow (result : Except ε α) : Blind (Execution.liftThrow result : Exec ε δ σ α) := by
  cases result with
  | ok value => exact pure value
  | error exception => exact ⟨.error (.thrown exception), id, fun _ => rfl⟩

theorem modify (change : σ → σ) : Blind (modify change : Exec ε δ σ Unit) :=
  ⟨.ok (), change, fun _ => rfl⟩

theorem bind {call : Exec ε δ σ α} {next : α → Exec ε δ σ β} (first : Blind call)
    (second : ∀ value, Blind (next value)) : Blind (call >>= next) := by
  obtain ⟨outcome, change, ran⟩ := first
  cases outcome with
  | ok value =>
      obtain ⟨outcome', change', ran'⟩ := second value
      refine ⟨outcome', change' ∘ change, fun state => ?_⟩
      rw [EStateM.run_bind, ran state]
      exact ran' (change state)
  | error fault =>
      refine ⟨.error fault, change, fun state => ?_⟩
      rw [EStateM.run_bind, ran state]
      rfl

end Blind

theorem run_forM_append_singleton (body : α → Exec ε δ σ Unit) (items : List α) (last : α)
    (state : σ) :
    ((items ++ [last]).forM body).run state =
      match (items.forM body).run state with
      | .ok _ next => (body last).run next
      | .error fault after => .error fault after := by
  induction items generalizing state with
  | nil =>
      simp only [List.nil_append, List.forM, EStateM.run_bind]
      cases ran : (body last).run state <;> simp [ran]
  | cons item rest ih =>
      simp only [List.cons_append, List.forM, EStateM.run_bind]
      cases (body item).run state with
      | ok _ next => exact ih next
      | error fault after => rfl

def Leaves (post : σ → Prop) (crash : Prop) : EStateM.Result (Fault ε δ) σ α → Prop
  | .ok _ after => post after
  | .error (.thrown _) after => post after
  | .error (.undefined _) _ => crash

theorem Leaves.imp {post post' : σ → Prop} {crash crash' : Prop}
    {result : EStateM.Result (Fault ε δ) σ α} (leaves : Leaves post crash result)
    (weaker : ∀ state, post state → post' state) (possible : crash → crash') :
    Leaves post' crash' result := by
  cases result with
  | ok _ after => exact weaker after leaves
  | error fault after =>
      cases fault with
      | thrown _ => exact weaker after leaves
      | undefined _ => exact possible leaves

theorem Leaves.forM {holds : σ → Prop} {crash : Prop} {body : α → Exec ε δ σ Unit}
    {items : List α} {state : σ} (initial : holds state)
    (each : ∀ item ∈ items, ∀ state, holds state → Leaves holds crash ((body item).run state)) :
    Leaves holds crash ((items.forM body).run state) := by
  induction items generalizing state with
  | nil => exact initial
  | cons item rest ih =>
      have first := each item (by simp) state initial
      simp only [List.forM, EStateM.run_bind]
      cases ran : (body item).run state with
      | ok _ next =>
          rw [ran] at first
          exact ih first fun other member => each other (by simp [member])
      | error fault next =>
          rw [ran] at first
          exact first

theorem Leaves.guarded {holds : σ → Prop} {crash : Prop} {body : Exec ε δ σ Unit} {state : σ}
    (leaves : Leaves holds crash (body.run state)) :
    Leaves holds crash ((guarded (fun _ => true) body (return ())).run state) := by
  rw [run_guarded]
  cases ran : body.run state with
  | ok _ next =>
      rw [ran] at leaves
      exact leaves
  | error fault next =>
      rw [ran] at leaves
      cases fault with
      | thrown _ => exact leaves
      | undefined _ => exact leaves

/-- A result is a good value exactly when `completes`, undefined exactly when `hazard`, and
otherwise one of the exceptions `raises` admits. -/
inductive Settled (result : Except (Fault ε δ) α) (good : α → Prop) (raises : ε → Prop)
    (completes hazard : Prop) : Prop
  | returned (value : α) : result = .ok value → good value → completes → ¬ hazard →
      Settled result good raises completes hazard
  | threw (exception : ε) : result = .error (.thrown exception) → raises exception →
      ¬ completes → ¬ hazard → Settled result good raises completes hazard
  | crashed (defect : δ) : result = .error (.undefined defect) → ¬ completes → hazard →
      Settled result good raises completes hazard

namespace Settled

variable {result : Except (Fault ε δ) α} {good : α → Prop} {raises : ε → Prop}
  {completes hazard : Prop}

theorem exclusive (settled : Settled result good raises completes hazard) (holds : completes) :
    ¬ hazard := by
  cases settled with
  | returned _ _ _ _ safe => exact safe
  | threw _ _ _ fails _ => exact (fails holds).elim
  | crashed _ _ fails _ => exact (fails holds).elim

theorem of_ok {value : α} (settled : Settled result good raises completes hazard)
    (returned : result = .ok value) : good value ∧ completes := by
  cases settled with
  | returned other same fine holds _ =>
      rw [same] at returned
      exact ⟨Except.ok.inj returned ▸ fine, holds⟩
  | threw _ failed _ _ _ => simp [failed] at returned
  | crashed _ failed _ _ => simp [failed] at returned

theorem exists_ok (settled : Settled result good raises completes hazard) (holds : completes) :
    ∃ value, result = .ok value ∧ good value := by
  cases settled with
  | returned value same fine _ _ => exact ⟨value, same, fine⟩
  | threw _ _ _ fails _ => exact (fails holds).elim
  | crashed _ _ fails _ => exact (fails holds).elim

theorem defined_iff (settled : Settled result good raises completes hazard) :
    ((∃ value, result = .ok value) ∨
      ∃ exception, result = .error (.thrown exception) ∧ raises exception) ↔ ¬ hazard := by
  cases settled with
  | returned _ same _ _ safe => simp [same, safe]
  | threw exception same admitted _ safe => simp [same, safe, admitted]
  | crashed _ same _ reached => simp [same, reached]

theorem imp {good' : α → Prop} (settled : Settled result good raises completes hazard)
    (weaker : ∀ value, good value → good' value) :
    Settled result good' raises completes hazard := by
  cases settled with
  | returned value same fine holds safe => exact .returned value same (weaker value fine) holds safe
  | threw exception same admitted fails safe => exact .threw exception same admitted fails safe
  | crashed defect same fails reached => exact .crashed defect same fails reached

theorem congr {completes' hazard' : Prop} (settled : Settled result good raises completes hazard)
    (sameCompletes : completes' ↔ completes) (sameHazard : hazard' ↔ hazard) :
    Settled result good raises completes' hazard' := by
  rw [sameCompletes, sameHazard]
  exact settled

end Settled

theorem mapM_cases (convert : α → Except ε β) (items : List α) :
    (∃ values, items.mapM convert = .ok values ∧
      List.Forall₂ (fun item value => convert item = .ok value) items values) ∨
    (∃ front item back error, items = front ++ item :: back ∧
      (∀ earlier ∈ front, ∃ value, convert earlier = .ok value) ∧
      convert item = .error error ∧ items.mapM convert = .error error) := by
  induction items with
  | nil => exact .inl ⟨[], rfl, .nil⟩
  | cons item rest ih =>
      cases converted : convert item with
      | error error =>
          refine .inr ⟨[], item, rest, error, rfl, by simp, converted, ?_⟩
          simp [List.mapM_cons, converted, bind, Except.bind]
      | ok value =>
          rcases ih with ⟨values, mapped, related⟩ | ⟨front, failing, back, error, split, done,
            failed, mapped⟩
          · refine .inl ⟨value :: values, ?_, .cons converted related⟩
            simp [List.mapM_cons, converted, mapped, bind, Except.bind, pure, Except.pure]
          · refine .inr ⟨item :: front, failing, back, error, by simp [split], ?_, failed, ?_⟩
            · intro earlier member
              rcases List.mem_cons.mp member with same | later
              · exact ⟨value, same ▸ converted⟩
              · exact done earlier later
            · simp [List.mapM_cons, converted, mapped, bind, Except.bind]

end

/-! Lists processed in order, where what an item does depends on the items before it. -/

section
variable {ε δ σ α β : Type}

def Throughout (complete : List α → α → Prop) (items : List α) : Prop :=
  ∀ front item back, items = front ++ item :: back → complete front item

def Reaches (complete hazard : List α → α → Prop) (items : List α) : Prop :=
  ∃ front item back, items = front ++ item :: back ∧ Throughout complete front ∧
    hazard front item

variable {complete hazard : List α → α → Prop}

theorem throughout_nil : Throughout complete ([] : List α) := by
  intro front item back split
  simp at split

theorem Throughout.append {front : List α} {item : α} (done : Throughout complete front)
    (last : complete front item) : Throughout complete (front ++ [item]) := by
  intro before current after split
  rcases List.append_eq_append_iff.mp split with ⟨middle, beforeEq, itemEq⟩ |
    ⟨middle, frontEq, currentEq⟩
  · cases middle with
    | nil =>
        simp only [List.nil_append, List.cons.injEq] at itemEq
        simp only [List.append_nil] at beforeEq
        rw [beforeEq, ← itemEq.1]
        exact last
    | cons head tail => simp at itemEq
  · cases middle with
    | nil =>
        simp only [List.nil_append, List.cons.injEq] at currentEq
        simp only [List.append_nil] at frontEq
        rw [← frontEq, currentEq.1]
        exact last
    | cons head tail =>
        simp only [List.cons_append, List.cons.injEq] at currentEq
        rw [currentEq.1]
        exact done before head tail frontEq

theorem not_reaches_of_stop {items front back : List α} {item : α}
    (split : items = front ++ item :: back) (done : Throughout complete front)
    (exclusive : ∀ before current after, items = before ++ current :: after →
      complete before current → ¬ hazard before current)
    (stops : ¬ complete front item) (safe : ¬ hazard front item) :
    ¬ Reaches complete hazard items := by
  rintro ⟨before, current, after, split', done', reached⟩
  rcases History.cut_cases (split.symm.trans split') with ⟨rfl, rfl⟩ | ⟨middle, beforeEq⟩ |
    ⟨middle, frontEq⟩
  · exact safe reached
  · exact stops (done' front item middle beforeEq)
  · exact exclusive before current after split' (done before current middle frontEq) reached

theorem forM_ok {body : α → Exec ε δ σ Unit} {invariant : List α → σ → Prop} {items : List α}
    {start final : σ}
    (step : ∀ front item back state next, items = front ++ item :: back → invariant front state →
      (body item).run state = .ok () next → invariant (front ++ [item]) next)
    (initial : invariant [] start) (returned : (items.forM body).run start = .ok () final) :
    invariant items final := by
  have suffix : ∀ rest front state, items = front ++ rest → invariant front state →
      (rest.forM body).run state = .ok () final → invariant items final := by
    intro rest
    induction rest with
    | nil =>
        intro front state split holds ran
        rw [List.append_nil] at split
        simp only [List.forM, EStateM.run_pure, EStateM.Result.ok.injEq, true_and] at ran
        exact split ▸ ran ▸ holds
    | cons item rest ih =>
        intro front state split holds ran
        simp only [List.forM, EStateM.run_bind] at ran
        cases first : (body item).run state with
        | ok _ next =>
            rw [first] at ran
            have stepped := step front item rest state next split holds first
            exact ih (front ++ [item]) next (by simpa using split) stepped ran
        | error fault next => simp [first] at ran
  exact suffix items [] start rfl initial returned

def finalState : EStateM.Result (Fault ε δ) σ Unit → Except (Fault ε δ) σ
  | .ok _ state => .ok state
  | .error fault _ => .error fault

/-- The rule for a loop over a list whose body is settled at every item it reaches. -/
theorem forM_settled {body : α → Exec ε δ σ Unit} {invariant : List α → σ → Prop}
    {raises : ε → Prop} {items : List α} {start : σ}
    (step : ∀ front item back state, items = front ++ item :: back → Throughout complete front →
      invariant front state → Settled (finalState ((body item).run state))
        (invariant (front ++ [item])) raises (complete front item) (hazard front item))
    (exclusive : ∀ front item back, items = front ++ item :: back →
      complete front item → ¬ hazard front item)
    (initial : invariant [] start) :
    Settled (finalState ((items.forM body).run start)) (invariant items) raises
      (Throughout complete items) (Reaches complete hazard items) := by
  have suffix : ∀ rest front state, items = front ++ rest → Throughout complete front →
      invariant front state → Settled (finalState ((rest.forM body).run state))
        (invariant items) raises (Throughout complete items)
          (Reaches complete hazard items) := by
    intro rest
    -- on what is left, `front` being what the loop has done
    induction rest with
    | nil =>
        intro front state split done holds
        rw [List.append_nil] at split
        subst split
        refine .returned state rfl holds done ?_
        rintro ⟨before, current, after, split, _, reached⟩
        exact exclusive before current after split (done before current after split) reached
    | cons item rest ih =>
        intro front state split done holds
        have stepped := step front item rest state split done holds
        simp only [List.forM, EStateM.run_bind]
        cases ran : (body item).run state with
        | ok _ next =>
            rw [ran] at stepped
            obtain ⟨holds', completes⟩ := stepped.of_ok rfl
            exact ih (front ++ [item]) next (by simpa using split) (done.append completes) holds'
        | error fault next =>
            rw [ran] at stepped
            cases stepped with
            | returned _ same _ _ _ => simp [finalState] at same
            | threw exception same admitted stops safe =>
                exact .threw exception same admitted (fun all => stops (all front item rest split))
                  (not_reaches_of_stop split done exclusive stops safe)
            | crashed defect same stops reached =>
                exact .crashed defect same (fun all => stops (all front item rest split))
                  ⟨front, item, rest, split, done, reached⟩
  exact suffix items [] start rfl throughout_nil initial

theorem mapM_settled {convert : α → Except (Fault ε δ) β} {good : β → Prop}
    {raises : ε → Prop} {completes hazards : α → Prop} {items : List α}
    (each : ∀ item ∈ items,
      Settled (convert item) good raises (completes item) (hazards item)) :
    Settled (items.mapM convert)
      (List.Forall₂ (fun item value => convert item = .ok value ∧ good value) items)
      raises (∀ item ∈ items, completes item)
      (Reaches (fun _ => completes) (fun _ => hazards) items) := by
  have exclusive : ∀ (front : List α) item back, items = front ++ item :: back →
      completes item → ¬ hazards item :=
    fun front item back split => (each item (by simp [split])).exclusive
  rcases mapM_cases convert items with ⟨values, mapped, related⟩ | ⟨front, item, back, fault,
    split, done, failed, mapped⟩
  · have complete : ∀ item ∈ items, completes item := by
      intro item member
      obtain ⟨index, below, rfl⟩ := List.mem_iff_getElem.mp member
      exact ((each _ member).of_ok (related.get below (related.length_eq ▸ below))).2
    refine .returned values mapped (List.forall₂_iff_get.mpr ⟨related.length_eq, ?_⟩) complete ?_
    · intro index below below'
      have converted := related.get below below'
      exact ⟨converted, ((each _ (List.get_mem _ _)).of_ok converted).1⟩
    · rintro ⟨before, current, after, split, _, reached⟩
      exact exclusive before current after split (complete current (by simp [split])) reached
  · have member : item ∈ items := by simp [split]
    have earlier : Throughout (fun _ => completes) front := by
      intro before current after inside
      obtain ⟨value, converted⟩ := done current (by simp [inside])
      exact ((each current (by simp [split, inside])).of_ok converted).2
    rw [mapped]
    cases each item member with
    | returned value same _ _ _ => simp [same] at failed
    | threw exception same admitted stops safe =>
        rw [same] at failed
        exact .threw exception (congrArg _ (Except.error.inj failed).symm) admitted
          (fun all => stops (all item member))
          (not_reaches_of_stop split earlier exclusive stops safe)
    | crashed defect same stops reached =>
        rw [same] at failed
        exact .crashed defect (congrArg _ (Except.error.inj failed).symm)
          (fun all => stops (all item member)) ⟨front, item, back, split, earlier, reached⟩

end

end Execution
