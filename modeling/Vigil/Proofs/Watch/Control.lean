import Mathlib.Tactic.SplitIfs
import Vigil.Watch.Schedule

/-!
# The control flow of a run

One step of a run goes from one place where it is held up to the next, and on the way it may decide,
query, read an answer and begin a pause.  Here such a step is taken apart into moves between points
of its control flow.  A property that every move keeps is kept by every step, so whoever has an
invariant looks at the moves and never at the functions that a step is composed of.
-/

namespace Vigil.Watch

open Log (Note)
open Vigil.Stream (Denial Reply)

/-- Where the control of a run is. -/
inductive Point (ω : Type) where
  /-- The run is held up in its phase, or it is over. -/
  | held
  /-- The run is about to look whether it has to end. -/
  | deciding
  /-- A query was begun. -/
  | asked (number : Nat)
  /-- The service has an answer for a query. -/
  | due (number : Nat)
  /-- The result of a query is known. -/
  | answered (number : Nat) (result : Result)
  /-- The run is about to pause. -/
  | pausing (delay : ω)

/-- The action is no step of the run and no look at the stream. -/
def Action.isAside {τ : Type} : Action τ → Bool
  | .run => false
  | .serve _ => false
  | _ => true

theorem Action.ne_run_of_isAside {τ : Type} {action : Action τ} (haside : action.isAside = true) :
    action ≠ .run := by
  rintro rfl
  cases haside

namespace World

variable {τ ω : Type} [Clock τ] [Wait ω] [Spans ω τ]

/-- What the result of a query leads to; `none` if the query cancelled the task of the run. -/
def observation (plan : Plan τ ω) (w : World τ ω) :
    Result → Option (List Note × Except Defect (Event τ))
  | .failure f => some (observeFailure plan.config plan.strategy f)
  | .payload v =>
      some (observePayload plan.config plan.strategy ⟨w.now, w.run.started, w.cancellation⟩ v)
  | .cancelled => none

/-- The state once a query was answered. -/
def withAnswer (plan : Plan τ ω) (w : World τ ω) (number : Nat) : World τ ω :=
  (((plan.services number).triggers.foldl trigger w).closeClient plan).record
    (.answered number (plan.strategy.read (plan.services number).answer))

/-- The state once a query was begun. -/
def withQuery (plan : Plan τ ω) (w : World τ ω) : World τ ω :=
  let w' := (w.record (.query w.run.queries)).openClient plan
  { w' with run := { w'.run with queries := w.run.queries + 1 } }

/-- The state at the beginning of a pause, before the clock is asked. -/
def withPause (w : World τ ω) (delay : ω) : World τ ω :=
  let w' := w.record (.paused delay)
  { w' with run := { w'.run with pauses := w.run.pauses + 1 } }.callHelpers w.run.pauses

/-- The state at the first step of a run. -/
def withBegin (w : World τ ω) : World τ ω :=
  { w with run := { w.run with started := w.now } }.record .began

/-- The state once a run logged its first line. -/
def withStart (w : World τ ω) (line : Note) : World τ ω := w.withBegin.note line

/-- The state once the hook was called with an observation and its failure was logged. -/
def withHook (plan : Plan τ ω) (w : World τ ω) (snapshot : Snapshot τ) : World τ ω :=
  (w.callHook plan snapshot).noteAll (complaints plan snapshot)

/-- The state before the grace period. -/
def withGrace (w : World τ ω) (line : Note) : World τ ω :=
  { w.note line with run := { w.run with graceDue := false } }

/-- The state of a run that ended because its task was cancelled. -/
def withFarewell (plan : Plan τ ω) (w : World τ ω) : World τ ω :=
  ((w.note (.warning "Poll task cancelled")).shutWith (killedEvent plan)).finish .cancelled

/-- Records can be made now. -/
def CanRecord (plan : Plan τ ω) (w : World τ ω) : Prop := Log.canRecord plan.heard w.now = true

instance (plan : Plan τ ω) (w : World τ ω) : Decidable (w.CanRecord plan) :=
  inferInstanceAs (Decidable (_ = true))

omit [Clock τ] [Wait ω] [Spans ω τ] in
@[simp]
theorem now_noteAll (w : World τ ω) (notes : List Note) : (w.noteAll notes).now = w.now := by
  induction notes generalizing w with
  | nil => rfl
  | cons n notes ih => exact ih (w.note n)

omit [Clock τ] [Wait ω] [Spans ω τ] in
@[simp]
theorem now_closeClient (plan : Plan τ ω) (w : World τ ω) :
    (w.closeClient plan).now = w.now := by
  rw [closeClient]
  split_ifs <;> rfl

omit [Clock τ] [Wait ω] [Spans ω τ] in
@[simp]
theorem now_callHook (plan : Plan τ ω) (w : World τ ω) (snapshot : Snapshot τ) :
    (w.callHook plan snapshot).now = w.now := by
  rw [callHook]
  split
  · rfl
  · rename_i hook _
    cases hook snapshot with
    | trigger t => cases t <;> rfl
    | _ => rfl

section Logging

omit [Wait ω] [Spans ω τ]

variable {plan : Plan τ ω} {w : World τ ω} {n : Note} {notes : List Note}

theorem canRecord_congr (plan : Plan τ ω) {w' : World τ ω} (h : w'.now = w.now) :
    w'.CanRecord plan ↔ w.CanRecord plan := by
  rw [CanRecord, CanRecord, h]

theorem log_of_canRecord (h : w.CanRecord plan) : w.log plan n = .ok (w.note n) := if_pos h

theorem log_of_not_canRecord (h : ¬ w.CanRecord plan) : w.log plan n = .error .tooLarge :=
  if_neg h

theorem logAll_of_canRecord (h : notes = [] ∨ w.CanRecord plan) :
    w.logAll plan notes = .ok (w.noteAll notes) := by
  induction notes generalizing w with
  | nil => rfl
  | cons n notes ih =>
      have hrecord : w.CanRecord plan := h.resolve_left (List.cons_ne_nil n notes)
      rw [logAll, List.foldlM_cons, log_of_canRecord hrecord]
      exact ih (.inr hrecord)

theorem logAll_of_not_canRecord (hsome : notes ≠ []) (h : ¬ w.CanRecord plan) :
    w.logAll plan notes = .error .tooLarge := by
  cases notes with
  | nil => exact absurd rfl hsome
  | cons n notes =>
      rw [logAll, List.foldlM_cons, log_of_not_canRecord h]
      rfl

/-- The run has a line to log and a record can be made of it, or it has no such line. -/
theorem line_cases (plan : Plan τ ω) (line : Except Defect Note) :
    (∃ n, line = .ok n ∧ w.CanRecord plan ∧ (line >>= w.log plan) = .ok (w.note n)) ∨
      ∃ d, (line >>= w.log plan) = .error d ∧
        (line = .error d ∨ ¬ w.CanRecord plan ∧ d = .tooLarge) := by
  cases line with
  | error d => exact .inr ⟨d, rfl, .inl rfl⟩
  | ok n =>
      by_cases h : w.CanRecord plan
      · exact .inl ⟨n, rfl, h, log_of_canRecord h⟩
      · exact .inr ⟨.tooLarge, log_of_not_canRecord h, .inr ⟨h, rfl⟩⟩

/-- A run whose task was cancelled logs that and leaves a last event, or it breaks because it cannot
log that. -/
theorem unwind_cases {motive : World τ ω → Prop}
    (hdated : w.CanRecord plan → motive (w.withFarewell plan))
    (hundated : ¬ w.CanRecord plan → motive (w.breakDown (.broken .tooLarge))) :
    motive (w.unwind plan) := by
  rw [unwind]
  by_cases h : w.CanRecord plan
  · rw [log_of_canRecord h]
    exact hdated h
  · rw [log_of_not_canRecord h]
    exact hundated h

end Logging

/-- A run breaks at something that it cannot log: where, in which state, and for which reason. -/
inductive Choke (plan : Plan τ ω) (w : World τ ω) : Point ω → World τ ω → Defect → Prop
  | abort {note : Note} {event : Event τ} (reason : w.abort? plan = some (note, event))
      (undated : ¬ w.CanRecord plan) : Choke plan w .deciding w .tooLarge
  | outcome {number : Nat} {result : Result} {seen : List Note × Except Defect (Event τ)}
      (observed : w.observation plan result = some seen) (something : seen.1 ≠ [])
      (undated : ¬ w.CanRecord plan) : Choke plan w (.answered number result) w .tooLarge
  | complaint {ticket : Nat} {snapshot : Snapshot τ}
      (phase : w.run.phase = .sending ticket (.progress snapshot))
      (reply : w.traffic.replyTo? (.run ticket) = some .sent)
      (failed : complaints plan snapshot ≠ []) (undated : ¬ w.CanRecord plan) :
      Choke plan w .held (w.callHook plan snapshot) .tooLarge
  | grace {ticket : Nat} {snapshot : Snapshot τ} {d : Defect}
      (phase : w.run.phase = .sending ticket (.progress snapshot))
      (reply : w.traffic.replyTo? (.run ticket) = some .sent)
      (first : (w.withHook plan snapshot).run.graceDue = true)
      (cause : sleepingLine plan = .error d ∨ ¬ w.CanRecord plan ∧ d = .tooLarge)
      (dated : complaints plan snapshot = [] ∨ w.CanRecord plan) :
      Choke plan w .held (w.withHook plan snapshot) d
  | interrupt {number : Nat} {due : τ} (phase : w.run.phase = .querying number due)
      (killed : w.run.killed = true) (undated : ¬ w.CanRecord plan) :
      Choke plan w .held (w.closeClient plan) .tooLarge
  | revoke {number : Nat} (undated : ¬ w.CanRecord plan) :
      Choke plan w (.answered number .cancelled) w .tooLarge
  | retract {ticket : Nat} {event : Event τ} {reply : Reply (Event τ)}
      (phase : w.run.phase = .sending ticket event)
      (answered : w.traffic.replyTo? (.run ticket) = some reply) (unsent : reply ≠ .sent)
      (undenied : ∀ d, reply ≠ .denied d) (undated : ¬ w.CanRecord plan) :
      Choke plan w .held w .tooLarge
  | leave {pause : Nat} {defect : Option Defect} (phase : w.run.phase = .tidying pause defect)
      (tidy : w.guarded pause = false) (killed : w.run.killed = true)
      (undated : ¬ w.CanRecord plan) : Choke plan w .held w .tooLarge

/-- The moves of a run: what leads from one point of its control flow to the next. -/
inductive Move (plan : Plan τ ω) (w : World τ ω) : Point ω → Point ω → World τ ω → Prop
  /-- The task was cancelled before its first step. -/
  | skip (phase : w.run.phase = .created) (killed : w.run.killed = true) :
      Move plan w .held .held ((w.shutWith (killedEvent plan)).finish .cancelled)
  | start {line : Note} (phase : w.run.phase = .created) (alive : w.run.killed = false)
      (opening : w.openingLine plan = .ok line) (dated : w.CanRecord plan) :
      Move plan w .held .deciding (w.withStart line)
  /-- The first line cannot be logged. -/
  | mute {d : Defect} (phase : w.run.phase = .created) (alive : w.run.killed = false)
      (cause : w.openingLine plan = .error d ∨ ¬ w.CanRecord plan ∧ d = .tooLarge) :
      Move plan w .held .held (w.withBegin.finish (.mute d))
  /-- Something cannot be logged after the first line. -/
  | choke {p : Point ω} {w' : World τ ω} {d : Defect} (cause : Choke plan w p w' d) :
      Move plan w p .held (w'.breakDown (.broken d))
  | abort {note : Note} {event : Event τ} (reason : w.abort? plan = some (note, event))
      (dated : w.CanRecord plan) : Move plan w .deciding .held ((w.note note).send event)
  | ask (noReason : w.abort? plan = none) :
      Move plan w .deciding (.asked w.run.queries) (w.withQuery plan)
  | wait {number : Nat} {span : τ} (duration : (plan.services number).duration = some span) :
      Move plan w (.asked number) .held (w.goTo (.querying number (Clock.add w.now span)))
  | atOnce {number : Nat} (duration : (plan.services number).duration = none) :
      Move plan w (.asked number) (.due number) w
  | inTime {number : Nat} {due : τ} (phase : w.run.phase = .querying number due)
      (alive : w.run.killed = false) (reached : Clock.reached w.now due = true) :
      Move plan w .held (.due number) w
  /-- The task was cancelled during a query. -/
  | interrupt {number : Nat} {due : τ} (phase : w.run.phase = .querying number due)
      (killed : w.run.killed = true) (dated : w.CanRecord plan) :
      Move plan w .held .held ((w.closeClient plan).withFarewell plan)
  | answer {number : Nat} :
      Move plan w (.due number)
        (.answered number (plan.strategy.read (plan.services number).answer))
        (w.withAnswer plan number)
  /-- The query cancelled the task. -/
  | revoke {number : Nat} (dated : w.CanRecord plan) :
      Move plan w (.answered number .cancelled) .held (w.withFarewell plan)
  /-- The result cannot be read. -/
  | fail {number : Nat} {result : Result} {notes : List Note} {d : Defect}
      (outcome : w.observation plan result = some (notes, .error d))
      (dated : notes = [] ∨ w.CanRecord plan) :
      Move plan w (.answered number result) .held ((w.noteAll notes).breakDown (.broken d))
  | publish {number : Nat} {result : Result} {notes : List Note} {event : Event τ}
      (outcome : w.observation plan result = some (notes, .ok event))
      (dated : notes = [] ∨ w.CanRecord plan) :
      Move plan w (.answered number result) .held ((w.noteAll notes).send event)
  | finish {ticket : Nat} {event : Event τ} (phase : w.run.phase = .sending ticket event)
      (reply : w.traffic.replyTo? (.run ticket) = some .sent)
      (terminal : event.isTerminal = true) :
      Move plan w .held .held (w.shut.finish .finished)
  | grace {ticket : Nat} {snapshot : Snapshot τ} {line : Note}
      (phase : w.run.phase = .sending ticket (.progress snapshot))
      (reply : w.traffic.replyTo? (.run ticket) = some .sent)
      (first : (w.withHook plan snapshot).run.graceDue = true)
      (sleeping : sleepingLine plan = .ok line) (dated : w.CanRecord plan) :
      Move plan w .held (.pausing plan.config.grace) ((w.withHook plan snapshot).withGrace line)
  | progress {ticket : Nat} {snapshot : Snapshot τ}
      (phase : w.run.phase = .sending ticket (.progress snapshot))
      (reply : w.traffic.replyTo? (.run ticket) = some .sent)
      (later : (w.withHook plan snapshot).run.graceDue = false)
      (dated : complaints plan snapshot = [] ∨ w.CanRecord plan) :
      Move plan w .held (.pausing plan.config.pollInterval) (w.withHook plan snapshot)
  | retry {ticket : Nat} {event : Event τ} (phase : w.run.phase = .sending ticket event)
      (reply : w.traffic.replyTo? (.run ticket) = some .sent)
      (terminal : event.isTerminal = false) (noSnapshot : event.snapshot? = none) :
      Move plan w .held (.pausing plan.config.pollInterval) w
  /-- The stream turned down an event. -/
  | refuse {ticket : Nat} {event : Event τ} {d : Denial}
      (phase : w.run.phase = .sending ticket event)
      (reply : w.traffic.replyTo? (.run ticket) = some (.denied d)) :
      Move plan w .held .held (w.breakDown (.denied d))
  /-- The task was cancelled while an event waited for the stream. -/
  | retract {ticket : Nat} {event : Event τ} {reply : Reply (Event τ)}
      (phase : w.run.phase = .sending ticket event)
      (answered : w.traffic.replyTo? (.run ticket) = some reply) (unsent : reply ≠ .sent)
      (undenied : ∀ d, reply ≠ .denied d) (dated : w.CanRecord plan) :
      Move plan w .held .held (w.withFarewell plan)
  | sleep {delay : ω} {span : τ} (positive : Wait.isPositive delay = true)
      (length : (Spans.span? delay : Option τ) = some span) :
      Move plan w (.pausing delay) .held
        ((w.withPause delay).goTo (.sleeping w.run.pauses (Clock.add w.now span)))
  /-- The delay is longer than the clock can count. -/
  | overrun {delay : ω} (positive : Wait.isPositive delay = true)
      (length : (Spans.span? delay : Option τ) = none) :
      Move plan w (.pausing delay) .held
        (((w.withPause delay).dismissHelpers w.run.pauses).goTo
          (.tidying w.run.pauses (some .tooLarge)))
  /-- The delay is not above zero. -/
  | hurry {delay : ω} (positive : Wait.isPositive delay = false) :
      Move plan w (.pausing delay) .deciding (w.record (.paused delay))
  | wake {pause : Nat} {due : τ} (phase : w.run.phase = .sleeping pause due)
      (reason : w.run.killed = true ∨ Clock.reached w.now due = true ∨
        w.fullyGuarded pause = false) :
      Move plan w .held .held ((w.dismissHelpers pause).goTo (.tidying pause none))
  /-- The task was cancelled during a pause. -/
  | leave {pause : Nat} {defect : Option Defect} (phase : w.run.phase = .tidying pause defect)
      (tidy : w.guarded pause = false) (killed : w.run.killed = true)
      (dated : w.CanRecord plan) : Move plan w .held .held (w.withFarewell plan)
  | collapse {pause : Nat} {d : Defect} (phase : w.run.phase = .tidying pause (some d))
      (tidy : w.guarded pause = false) (alive : w.run.killed = false) :
      Move plan w .held .held (w.breakDown (.broken d))
  | rise {pause : Nat} (phase : w.run.phase = .tidying pause none)
      (tidy : w.guarded pause = false) (alive : w.run.killed = false) :
      Move plan w .held .deciding w

/-- A run that is over makes no move. -/
theorem Move.phase_ne_ended {plan : Plan τ ω} {w w' : World τ ω} {p' : Point ω}
    (h : Move plan w .held p' w') (how : Ending) : w.run.phase ≠ .ended how := by
  intro hphase
  cases h with
  | choke cause => cases cause <;> simp_all
  | _ => simp_all

section AfterSend

variable {plan : Plan τ ω} {snapshot : Snapshot τ} {w w₁ : World τ ω}

theorem afterSend_of_logged
    (hlog : (w.callHook plan snapshot).logAll plan (complaints plan snapshot) = .ok w₁) :
    w.afterSend plan (.progress snapshot) = w₁.rest plan := by
  simp [afterSend, hlog, Event.isTerminal, Event.kind, Event.Kind.isTerminal]

theorem afterSend_of_not_logged {d : Defect}
    (hlog : (w.callHook plan snapshot).logAll plan (complaints plan snapshot) = .error d) :
    w.afterSend plan (.progress snapshot) = (w.callHook plan snapshot).breakDown (.broken d) := by
  simp [afterSend, hlog, Event.isTerminal, Event.kind, Event.Kind.isTerminal]

end AfterSend

/-- A property of a run at the points of its control flow that every move keeps. -/
def Stable (plan : Plan τ ω) (holds : Point ω → World τ ω → Prop) : Prop :=
  ∀ ⦃w p p' w'⦄, Move plan w p p' w' → holds p w → holds p' w'

namespace Stable

variable {plan : Plan τ ω} {holds : Point ω → World τ ω → Prop} {w : World τ ω}

theorem conclude (hstable : Stable plan holds) {number : Nat} {result : Result}
    {seen : List Note × Except Defect (Event τ)} (hseen : w.observation plan result = some seen)
    (h : holds (.answered number result) w) : holds .held (w.conclude plan seen) := by
  obtain ⟨notes, event⟩ := seen
  by_cases hdated : notes = [] ∨ w.CanRecord plan
  · rw [World.conclude, logAll_of_canRecord hdated]
    cases event with
    | error d => exact hstable (.fail hseen hdated) h
    | ok event => exact hstable (.publish hseen hdated) h
  · obtain ⟨hsome, hundated⟩ := not_or.mp hdated
    rw [World.conclude, logAll_of_not_canRecord hsome hundated]
    exact hstable (.choke (.outcome hseen hsome hundated)) h

theorem endQuery (hstable : Stable plan holds) {number : Nat} (h : holds (.due number) w) :
    holds .held (w.endQuery plan number) := by
  have hanswered := hstable .answer h
  cases hresult : plan.strategy.read (plan.services number).answer with
  | cancelled =>
      rw [hresult] at hanswered
      have hend : w.endQuery plan number = (w.withAnswer plan number).unwind plan := by
        simp only [World.endQuery, withAnswer, hresult]
      rw [hend]
      exact unwind_cases (fun hdated => hstable (.revoke hdated) hanswered)
        fun hundated => hstable (.choke (.revoke hundated)) hanswered
  | failure f =>
      rw [hresult] at hanswered
      have hend : w.endQuery plan number =
          (w.withAnswer plan number).conclude plan
            (observeFailure plan.config plan.strategy f) := by
        simp only [World.endQuery, withAnswer, hresult]
      rw [hend]
      exact hstable.conclude rfl hanswered
  | payload v =>
      rw [hresult] at hanswered
      have hend : w.endQuery plan number =
          (w.withAnswer plan number).conclude plan
            (observePayload plan.config plan.strategy
              ⟨(w.withAnswer plan number).now, (w.withAnswer plan number).run.started,
                (w.withAnswer plan number).cancellation⟩ v) := by
        simp only [World.endQuery, withAnswer, hresult]
      rw [hend]
      exact hstable.conclude rfl hanswered

theorem beginQuery (hstable : Stable plan holds) (hgo : w.abort? plan = none)
    (h : holds .deciding w) : holds .held (w.beginQuery plan) := by
  have hasked := hstable (.ask hgo) h
  cases hduration : (plan.services w.run.queries).duration with
  | none =>
      have hbegin : w.beginQuery plan = (w.withQuery plan).endQuery plan w.run.queries := by
        simp only [World.beginQuery, withQuery, hduration]
      rw [hbegin]
      exact hstable.endQuery (hstable (.atOnce hduration) hasked)
  | some span =>
      have hbegin : w.beginQuery plan =
          (w.withQuery plan).goTo
            (.querying w.run.queries (Clock.add (w.withQuery plan).now span)) := by
        simp only [World.beginQuery, withQuery, hduration]
      rw [hbegin]
      exact hstable (.wait hduration) hasked

theorem decide (hstable : Stable plan holds) (h : holds .deciding w) :
    holds .held (w.decide plan) := by
  rw [World.decide]
  cases habort : w.abort? plan with
  | none => exact hstable.beginQuery habort h
  | some reason =>
      by_cases hdated : w.CanRecord plan
      · simp only [World.conclude, logAll_of_canRecord (.inr hdated)]
        exact hstable (.abort habort hdated) h
      · simp only [World.conclude, logAll_of_not_canRecord (List.cons_ne_nil _ _) hdated]
        exact hstable (.choke (.abort habort hdated)) h

theorem pause (hstable : Stable plan holds) {delay : ω} (h : holds (.pausing delay) w) :
    holds .held (w.pause plan delay) := by
  rw [World.pause]
  cases hpositive : Wait.isPositive delay with
  | false =>
      simp only [Bool.false_eq_true, if_false]
      exact hstable.decide (hstable (.hurry hpositive) h)
  | true =>
      simp only [if_true]
      cases hspan : (Spans.span? delay : Option τ) with
      | none => exact hstable (.overrun hpositive hspan) h
      | some span => exact hstable (.sleep hpositive hspan) h

theorem begin (hstable : Stable plan holds) (hphase : w.run.phase = .created)
    (hfirst : ∀ ⦃p w'⦄, Move plan w .held p w' → holds p w') : holds .held (w.begin plan) := by
  rw [World.begin]
  cases hkilled : w.run.killed with
  | false =>
      simp only [Bool.false_eq_true, if_false]
      rcases w.withBegin.line_cases plan (w.openingLine plan) with
        ⟨line, hline, hdated, hlog⟩ | ⟨d, hlog, hcause⟩
      · exact hlog ▸ hstable.decide (hfirst (.start hphase hkilled hline hdated))
      · exact hlog ▸ hfirst (.mute hphase hkilled hcause)
  | true =>
      simp only [if_true]
      exact hfirst (.skip hphase hkilled)

theorem rest (hstable : Stable plan holds) {ticket : Nat} {snapshot : Snapshot τ}
    (hphase : w.run.phase = .sending ticket (.progress snapshot))
    (hreply : w.traffic.replyTo? (.run ticket) = some .sent)
    (hdated : complaints plan snapshot = [] ∨ w.CanRecord plan)
    (hfirst : ∀ ⦃p w'⦄, Move plan w .held p w' → holds p w') :
    holds .held ((w.withHook plan snapshot).rest plan) := by
  have hnow : (w.withHook plan snapshot).now = w.now := by simp [withHook]
  rw [World.rest]
  cases hgrace : (w.withHook plan snapshot).run.graceDue with
  | false =>
      simp only [Bool.false_eq_true, if_false]
      exact hstable.pause (hfirst (.progress hphase hreply hgrace hdated))
  | true =>
      simp only [if_true]
      rcases (w.withHook plan snapshot).line_cases plan (sleepingLine plan) with
        ⟨line, hline, hcan, hlog⟩ | ⟨d, hlog, hcause⟩
      · rw [hlog]
        exact hstable.pause
          (hfirst (.grace hphase hreply hgrace hline ((canRecord_congr plan hnow).mp hcan)))
      · rw [hlog]
        rw [canRecord_congr plan hnow] at hcause
        exact hfirst (.choke (.grace hphase hreply hgrace hcause hdated))

/-- What follows an accepted observation. -/
theorem afterProgress (hstable : Stable plan holds) {ticket : Nat} {snapshot : Snapshot τ}
    (hphase : w.run.phase = .sending ticket (.progress snapshot))
    (hreply : w.traffic.replyTo? (.run ticket) = some .sent)
    (hfirst : ∀ ⦃p w'⦄, Move plan w .held p w' → holds p w') :
    holds .held (w.afterSend plan (.progress snapshot)) := by
  have hnow := canRecord_congr plan (w.now_callHook plan snapshot)
  by_cases hdated : complaints plan snapshot = [] ∨ w.CanRecord plan
  · rw [afterSend_of_logged (logAll_of_canRecord (hdated.imp_right hnow.mpr))]
    exact hstable.rest hphase hreply hdated hfirst
  · obtain ⟨hsome, hundated⟩ := not_or.mp hdated
    rw [afterSend_of_not_logged (logAll_of_not_canRecord hsome (hundated ∘ hnow.mp))]
    exact hfirst (.choke (.complaint hphase hreply hsome hundated))

theorem afterSend (hstable : Stable plan holds) {ticket : Nat} {event : Event τ}
    (hphase : w.run.phase = .sending ticket event)
    (hreply : w.traffic.replyTo? (.run ticket) = some .sent)
    (hfirst : ∀ ⦃p w'⦄, Move plan w .held p w' → holds p w') :
    holds .held (w.afterSend plan event) := by
  unfold World.afterSend
  cases hterminal : event.isTerminal with
  | true =>
      simp only [if_true]
      exact hfirst (.finish hphase hreply hterminal)
  | false =>
      simp only [Bool.false_eq_true, if_false]
      cases event with
      | progress snapshot => exact hstable.afterProgress hphase hreply hfirst
      | queryError f => exact hstable.pause (hfirst (.retry hphase hreply hterminal rfl))
      | emptyResponse f => exact hstable.pause (hfirst (.retry hphase hreply hterminal rfl))
      | desired snapshot => cases hterminal
      | absent => cases hterminal
      | failed snapshot f => cases hterminal
      | notFound f => cases hterminal
      | cancelled f => cases hterminal
      | stopped f => cases hterminal

/-- What the first move brings about and every move keeps holds after a step of the run, which makes
at least one move. -/
theorem stepRun_of_first (hstable : Stable plan holds) (hgo : w.runCanGo = true)
    (hfirst : ∀ ⦃p w'⦄, Move plan w .held p w' → holds p w') : holds .held (w.stepRun plan) := by
  rw [World.stepRun]
  rw [runCanGo] at hgo
  cases hphase : w.run.phase with
  | created => exact hstable.begin hphase hfirst
  | querying number due =>
      simp only [hphase, Bool.or_eq_true] at hgo ⊢
      cases hkilled : w.run.killed with
      | true =>
          simp only [if_true]
          have hnow := canRecord_congr plan (w.now_closeClient plan)
          exact unwind_cases
            (fun hdated => hfirst (.interrupt hphase hkilled (hnow.mp hdated)))
            fun hundated => hfirst (.choke (.interrupt hphase hkilled (hundated ∘ hnow.mpr)))
      | false =>
          simp only [hkilled, Bool.false_eq_true, false_or] at hgo
          simp only [Bool.false_eq_true, if_false]
          exact hstable.endQuery (hfirst (.inTime hphase hkilled hgo))
  | sending ticket event =>
      simp only [hphase] at hgo
      simp only
      split
      · exact hstable.afterSend hphase ‹_› hfirst
      · exact hfirst (.refuse hphase ‹_›)
      · rename_i reply hunsent hundenied hreply
        exact unwind_cases
          (fun hdated => hfirst (.retract hphase hreply hunsent hundenied hdated))
          fun hundated => hfirst (.choke (.retract hphase hreply hunsent hundenied hundated))
      · rename_i hnone
        rw [hnone] at hgo
        cases hgo
  | sleeping pause due =>
      simp only [hphase, Bool.or_eq_true, Bool.not_eq_true'] at hgo
      exact hfirst (.wake hphase (or_assoc.mp hgo))
  | tidying pause defect =>
      simp only [hphase, Bool.not_eq_true'] at hgo
      simp only
      cases hkilled : w.run.killed with
      | true =>
          simp only [if_true]
          exact unwind_cases (fun hdated => hfirst (.leave hphase hgo hkilled hdated))
            fun hundated => hfirst (.choke (.leave hphase hgo hkilled hundated))
      | false =>
          simp only [Bool.false_eq_true, if_false]
          cases defect with
          | none => exact hstable.decide (hfirst (.rise hphase hgo hkilled))
          | some d => exact hfirst (.collapse hphase hgo hkilled)
  | ended how =>
      rw [hphase] at hgo
      cases hgo

/-- What every move keeps is kept by every step of the run. -/
theorem stepRun (hstable : Stable plan holds) (hgo : w.runCanGo = true) (h : holds .held w) :
    holds .held (w.stepRun plan) :=
  hstable.stepRun_of_first hgo fun _ _ hmove => hstable hmove h

end Stable

/-- What an action leads to, where it is possible. -/
inductive Acts (plan : Plan τ ω) (w : World τ ω) : Action τ → World τ ω → Prop
  | run (go : w.runCanGo = true) : Acts plan w .run (w.stepRun plan)
  | helper {position : Nat} {h : Helper τ} (there : w.helpers[position]? = some h)
      (ready : w.helperCanGo h = true) : Acts plan w (.helper position) (w.stepHelper position h)
  | serve {position : Nat} (ready : position < w.traffic.ready.length) :
      Acts plan w (.serve position) { w with traffic := w.traffic.serveAt position }
  | passTime {goal : τ} (settled : w.isSettled = true) (later : Clock.lt w.now goal = true)
      (timers : ∀ due ∈ w.timers, Clock.lt due goal = false) :
      Acts plan w (.passTime goal) { w with now := goal }
  | trigger {t : Trigger} : Acts plan w (.trigger t) (w.trigger t)
  | kill (heldUp : w.isHeldUp = true) : Acts plan w .kill w.kill
  | ask {consumer : Nat} {request : Stream.Ask (Event τ)} :
      Acts plan w (.ask consumer request)
        { w with traffic := w.traffic.start (.consumer consumer) request }
  | withdraw {consumer : Nat} :
      Acts plan w (.withdraw consumer)
        { w with traffic := w.traffic.withdraw (.consumer consumer) }

section Acts

variable {plan : Plan τ ω} {w w' : World τ ω} {action : Action τ}

/-- An action that is possible does what it is to do, and nothing else. -/
theorem acts_of_act? (hact : w.act? plan action = some w') : Acts plan w action w' := by
  cases action with
  | run =>
      simp only [act?, Option.ite_none_right_eq_some, Option.some.injEq] at hact
      obtain ⟨hgo, rfl⟩ := hact
      exact .run hgo
  | helper position =>
      simp only [act?] at hact
      split at hact
      · rename_i helper hthere
        split_ifs at hact with hready
        cases hact
        exact .helper hthere hready
      · cases hact
  | serve position =>
      simp only [act?, Option.ite_none_right_eq_some, Option.some.injEq] at hact
      obtain ⟨hready, rfl⟩ := hact
      exact .serve hready
  | passTime goal =>
      simp only [act?, Option.ite_none_right_eq_some, Option.some.injEq, Bool.and_eq_true,
        List.all_eq_true, Bool.not_eq_true'] at hact
      obtain ⟨⟨⟨hsettled, hlater⟩, htimers⟩, rfl⟩ := hact
      exact .passTime hsettled hlater htimers
  | trigger t =>
      cases hact
      exact .trigger
  | kill =>
      simp only [act?, Option.ite_none_right_eq_some, Option.some.injEq] at hact
      obtain ⟨hheld, rfl⟩ := hact
      exact .kill hheld
  | ask consumer request =>
      cases hact
      exact .ask
  | withdraw consumer =>
      cases hact
      exact .withdraw

omit [Clock τ] [Wait ω] [Spans ω τ] in
theorem kill_still (w : World τ ω) :
    w.kill.run.phase = w.run.phase ∧ w.kill.journal = w.journal ∧
      w.kill.traffic.finished = w.traffic.finished := by
  rw [kill]
  split <;> exact ⟨rfl, rfl, rfl⟩

/-- Nobody but the run moves it on. -/
theorem Acts.phase_eq (h : Acts plan w action w') (hother : action ≠ .run) :
    w'.run.phase = w.run.phase := by
  cases h with
  | run _ => exact absurd rfl hother
  | @trigger t => cases t <;> rfl
  | kill _ => exact w.kill_still.1
  | _ => rfl

/-- Nobody but the run writes into its journal. -/
theorem Acts.journal_eq (h : Acts plan w action w') (hother : action ≠ .run) :
    w'.journal = w.journal := by
  cases h with
  | run _ => exact absurd rfl hother
  | @trigger t => cases t <;> rfl
  | kill _ => exact w.kill_still.2.1
  | _ => rfl

/-- Nobody is answered but by a look at the stream. -/
theorem Acts.finished_eq (h : Acts plan w action w') (haside : action.isAside = true) :
    w'.traffic.finished = w.traffic.finished := by
  cases h with
  | run _ => cases haside
  | serve _ => cases haside
  | @trigger t => cases t <;> rfl
  | kill _ => exact w.kill_still.2.2
  | _ => rfl

end Acts

/-- Whether some actions are possible and lead where they are said to lead is found by doing
them. -/
instance {α : Type} {o : Option α} {holds : α → Prop} [DecidablePred holds] :
    Decidable (∃ a, o = some a ∧ holds a) :=
  decidable_of_iff (o.any fun a => Decidable.decide (holds a)) (by simp [Option.any_eq_true])

/-- Of some actions that are possible, the first is, and then the others. -/
theorem exists_of_actAll?_cons {plan : Plan τ ω} {w w' : World τ ω} {action : Action τ}
    {actions : List (Action τ)} (hact : w.actAll? plan (action :: actions) = some w') :
    ∃ middle, w.act? plan action = some middle ∧ middle.actAll? plan actions = some w' := by
  rw [actAll?] at hact
  split at hact
  · exact ⟨_, ‹_›, hact⟩
  · cases hact

/-- A property that holds wherever the run is held up, as long as nothing but allowed actions
happens. -/
structure Invariant (plan : Plan τ ω) (allowed : Action τ → Prop)
    (holds : Point ω → World τ ω → Prop) : Prop where
  moves : Stable plan holds
  helper {w : World τ ω} {position : Nat} {h : Helper τ} (there : w.helpers[position]? = some h)
    (ready : w.helperCanGo h = true) (before : holds .held w) :
    holds .held (w.stepHelper position h)
  serve {w : World τ ω} {position : Nat} (ready : position < w.traffic.ready.length)
    (before : holds .held w) : holds .held { w with traffic := w.traffic.serveAt position }
  passTime {w : World τ ω} {goal : τ} (settled : w.isSettled = true)
    (later : Clock.lt w.now goal = true)
    (timers : ∀ due ∈ w.timers, Clock.lt due goal = false) (before : holds .held w) :
    holds .held { w with now := goal }
  trigger {w : World τ ω} {t : Trigger} (before : holds .held w) : holds .held (w.trigger t)
  kill {w : World τ ω} (heldUp : w.isHeldUp = true) (before : holds .held w) :
    holds .held w.kill
  ask {w : World τ ω} {consumer : Nat} {request : Stream.Ask (Event τ)}
    (may : allowed (.ask consumer request)) (before : holds .held w) :
    holds .held { w with traffic := w.traffic.start (.consumer consumer) request }
  withdraw {w : World τ ω} {consumer : Nat} (may : allowed (.withdraw consumer))
    (before : holds .held w) :
    holds .held { w with traffic := w.traffic.withdraw (.consumer consumer) }

namespace Invariant

variable {plan : Plan τ ω} {allowed : Action τ → Prop} {holds : Point ω → World τ ω → Prop}
variable {w w' : World τ ω}

theorem act (hinvariant : Invariant plan allowed holds) {action : Action τ}
    (hallowed : allowed action) (hact : w.act? plan action = some w') (h : holds .held w) :
    holds .held w' := by
  cases acts_of_act? hact with
  | run go => exact hinvariant.moves.stepRun go h
  | helper there ready => exact hinvariant.helper there ready h
  | serve ready => exact hinvariant.serve ready h
  | passTime settled later timers => exact hinvariant.passTime settled later timers h
  | trigger => exact hinvariant.trigger h
  | kill heldUp => exact hinvariant.kill heldUp h
  | ask => exact hinvariant.ask hallowed h
  | withdraw => exact hinvariant.withdraw hallowed h

theorem actAll (hinvariant : Invariant plan allowed holds) {actions : List (Action τ)}
    (hallowed : ∀ action ∈ actions, allowed action) (hact : w.actAll? plan actions = some w')
    (h : holds .held w) : holds .held w' := by
  induction actions generalizing w with
  | nil =>
      cases hact
      exact h
  | cons action actions ih =>
      obtain ⟨middle, hmiddle, hact⟩ := exists_of_actAll?_cons hact
      refine ih (fun a ha => hallowed a (List.mem_cons_of_mem _ ha)) hact ?_
      exact hinvariant.act (hallowed action List.mem_cons_self) hmiddle h

end Invariant

/-- Some actions happen after others. -/
theorem actAll?_append (plan : Plan τ ω) (w : World τ ω) (before after : List (Action τ)) :
    w.actAll? plan (before ++ after) =
      (w.actAll? plan before).bind fun w' => w'.actAll? plan after := by
  induction before generalizing w with
  | nil => rfl
  | cons action actions ih =>
      simp only [List.cons_append, actAll?]
      cases w.act? plan action with
      | none => rfl
      | some w' => exact ih w'

end World

end Vigil.Watch
