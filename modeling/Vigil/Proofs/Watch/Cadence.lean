import Vigil.Proofs.Watch.Farewell
import Vigil.Proofs.Watch.Timetable

/-!
# A watch keeps to its timetable

Each event that does not end the watch is followed by its pause, from the very instant at which the
stream accepted it, however long it had to wait for room.  And each pause is followed by the next
query at the instant at which the pause is over, unless the watch has to end by then.  Between two
queries the run holds a pause that it has not slept off, or an event that it has not paused for, and
never both.
-/

namespace Vigil.Watch

open Log (Note)
open Vigil.Stream (Denial Reply Traffic)

variable {τ ω : Type}

namespace World

section Publications

variable [Clock τ] [Wait ω] [Spans ω τ]

/-- What an action puts on the stream for the run, with the instant. -/
def publishedBy (w w' : World τ ω) (action : Action τ) : List (τ × Event τ) :=
  (w.saidBy w' action).map fun event => (w.now, event)

/-- What the stream accepts from the run in the course of some actions, with the instants. -/
def publications (plan : Plan τ ω) (w : World τ ω) : List (Action τ) → List (τ × Event τ)
  | [] => []
  | action :: actions =>
      match w.act? plan action with
      | some w' => w.publishedBy w' action ++ w'.publications plan actions
      | none => []

end Publications

/-- A pause has begun since the last query, if there was a query. -/
def Rested (w : World τ ω) : Prop := w.queryTimes.length = w.pauses.length

/-- No pause has begun since the last query. -/
def Busy (w : World τ ω) : Prop := w.queryTimes.length = w.pauses.length + 1

/-- The grace period is still to come as long as no observation was heard of. -/
def GraceAhead (heard : List (τ × Event τ)) (w : World τ ω) : Prop :=
  w.run.graceDue = true ↔ ∀ entry ∈ heard, entry.2.kind ≠ .progress

variable [Clock τ] [Wait ω] [Spans ω τ]

/-- The next query is due: the run has just started, or its last pause is over. -/
def Ready (start : τ) (w : World τ ω) : Prop :=
  w.pauses = [] ∧ w.now = start ∨
    ∃ begun delay, w.pauses.getLast? = some (begun, delay) ∧ Resumes begun delay w.now

/-- The last pause is to end at an instant that the clock has not passed. -/
def Slumbers (due : τ) (w : World τ ω) : Prop :=
  ∃ begun delay span, w.pauses.getLast? = some (begun, delay) ∧ Wait.isPositive delay = true ∧
    Spans.span? delay = some span ∧ due = Clock.add begun span ∧
      (w.now = begun ∨ Clock.lt due w.now = false)

/-- The last pause is longer than the clock can count. -/
def Uncounted (w : World τ ω) : Prop :=
  ∃ begun delay, w.pauses.getLast? = some (begun, delay) ∧ Wait.isPositive delay = true ∧
    (Spans.span? delay : Option τ) = none

end World

section Cadence

variable [Clock τ] [Wait ω] [Spans ω τ]

/-- The pauses and queries of a run that has heard of the acceptance of some events. -/
structure Diary (config : WaitConfig ω) (start : τ) (heard : List (τ × Event τ))
    (pauses : List (τ × ω)) (queries : List τ) : Prop where
  going : ∀ entry ∈ heard, entry.2.isTerminal = false
  scheduled : pauses = schedule config heard
  first : ∀ instant ∈ queries.head?, instant = start
  resumed : ∀ number instant, queries[number + 1]? = some instant →
    ∃ begun delay, pauses[number]? = some (begun, delay) ∧ Resumes begun delay instant

/-- What became of the event that a run offers to the stream. -/
inductive Delivery (published heard : List (τ × Event τ)) (ticket : Nat) (event : Event τ)
    (w : World τ ω) : Prop
  | waiting (unanswered : w.traffic.replyTo? (.run ticket) = none) (all : published = heard)
  | taken (answered : w.traffic.replyTo? (.run ticket) = some .sent)
      (last : published = heard ++ [(w.now, event)])
  | lost {reply : Reply (Event τ)} (answered : w.traffic.replyTo? (.run ticket) = some reply)
      (unsent : reply ≠ .sent) (all : published = heard)

/-- What a run has written down that knows of all its events that the stream accepted. -/
structure Noted (plan : Plan τ ω) (start : τ) (published : List (τ × Event τ)) (w : World τ ω) :
    Prop where
  diary : Diary plan.config start published w.pauses w.queryTimes
  grace : w.GraceAhead published

/-- A run broke after an event that the stream accepted, because it could not log what it had to
log before the pause. -/
structure Hushed (plan : Plan τ ω) (heard pending : List (τ × Event τ)) (w : World τ ω) (d : Defect)
    (instant : τ) (event : Event τ) : Prop where
  newest : pending = [(instant, event)]
  going : event.isTerminal = false
  speaks : SpeaksAfter plan (heard.map Prod.snd) event
  ended : w.endedAt = some instant
  cause : World.sleepingLine plan = .error d ∨ Undated plan instant ∧ d = .tooLarge

/-- Where a run stands on its timetable while it is held up in a phase. -/
def TimelyIn (plan : Plan τ ω) (start : τ) (published : List (τ × Event τ)) (w : World τ ω) :
    Phase τ → Prop
  | .created => Noted plan start published w ∧ w.Rested ∧ w.pauses = [] ∧ w.now = start
  | .querying _ _ => Noted plan start published w ∧ w.Busy
  | .sending ticket event =>
      ∃ heard, Noted plan start heard w ∧ Delivery published heard ticket event w ∧
        (w.Busy ∨ event.isTerminal = true ∧ w.Rested ∧ w.MustEnd)
  | .sleeping _ due => Noted plan start published w ∧ w.Rested ∧ w.Slumbers due
  | .tidying _ none =>
      Noted plan start published w ∧ w.Rested ∧
        (w.run.killed = true ∨ w.MustEnd ∨ w.Ready start)
  | .tidying _ (some d) =>
      Noted plan start published w ∧ w.Rested ∧ d = .tooLarge ∧ w.Uncounted
  | .ended how =>
      ∃ heard pending, published = heard ++ pending ∧
        ((∀ entry ∈ pending, entry.2.isTerminal = true) ∨
          ∃ d instant event, how = .broken d ∧ Hushed plan heard pending w d instant event) ∧
          Diary plan.config start heard w.pauses w.queryTimes ∧
            (w.Busy ∨ w.Rested ∧
              (w.run.killed = true ∨ w.MustEnd ∨ how = .broken .tooLarge ∧ w.Uncounted ∨
                ∃ d, how = .mute d))

/-- Where a run stands on its timetable at a point of its control flow. -/
def TimelyAt (plan : Plan τ ω) (start : τ) (published : List (τ × Event τ)) (w : World τ ω) :
    Point ω → Prop
  | .held => TimelyIn plan start published w w.run.phase
  | .deciding => Noted plan start published w ∧ w.Rested ∧ (w.MustEnd ∨ w.Ready start)
  | .pausing delay =>
      ∃ heard event, published = heard ++ [(w.now, event)] ∧ event.isTerminal = false ∧
        delay = delayAfter plan.config (heard.map Prod.snd) event ∧
          Diary plan.config start heard w.pauses w.queryTimes ∧ w.GraceAhead published ∧ w.Busy
  | _ => Noted plan start published w ∧ w.Busy

variable {plan : Plan τ ω} {start : τ} {published heard : List (τ × Event τ)}
variable {w w' : World τ ω}

theorem timelyIn_of_phase {phase : Phase τ} (hphase : w.run.phase = phase)
    (h : TimelyAt plan start published w (.held : Point ω)) :
    TimelyIn plan start published w phase := by
  rw [← hphase]
  exact h

/-! ### While the timetable stands still -/

namespace World.Still

variable (h : Still w w')

include h

omit [Wait ω] [Spans ω τ] in
theorem rested (hrested : w.Rested) : w'.Rested := by
  rwa [Rested, h.queries, h.pauses]

omit [Wait ω] [Spans ω τ] in
theorem busy (hbusy : w.Busy) : w'.Busy := by
  rwa [Busy, h.queries, h.pauses]

omit [Wait ω] [Spans ω τ] in
theorem graceAhead (hgrace : w.GraceAhead heard) : w'.GraceAhead heard := by
  rwa [GraceAhead, h.graceDue]

theorem ready (hready : w.Ready start) : w'.Ready start := by
  rwa [Ready, h.pauses, h.now]

theorem slumbers {due : τ} (hslumbers : w.Slumbers due) : w'.Slumbers due := by
  rwa [Slumbers, h.pauses, h.now]

theorem uncounted (huncounted : w.Uncounted) : w'.Uncounted := by
  rwa [Uncounted, h.pauses]

theorem diary {config : WaitConfig ω} (hdiary : Diary config start heard w.pauses w.queryTimes) :
    Diary config start heard w'.pauses w'.queryTimes := by
  rwa [h.queries, h.pauses]

theorem noted (hnoted : Noted plan start heard w) : Noted plan start heard w' :=
  ⟨h.diary hnoted.diary, h.graceAhead hnoted.grace⟩

omit [Wait ω] [Spans ω τ] in
theorem delivery {ticket : Nat} {event : Event τ}
    (hreply : w'.traffic.replyTo? (.run ticket) = w.traffic.replyTo? (.run ticket))
    (hdelivery : Delivery published heard ticket event w) :
    Delivery published heard ticket event w' := by
  cases hdelivery with
  | waiting unanswered all => exact .waiting (hreply.trans unanswered) all
  | taken answered last => exact .taken (hreply.trans answered) (h.now ▸ last)
  | lost answered unsent all => exact .lost (hreply.trans answered) unsent all

/-- A run that is held up stays where it is on its timetable. -/
theorem timelyIn {phase : Phase τ} (hended : w'.endedAt = w.endedAt)
    (hreply : ∀ ticket, w'.traffic.replyTo? (.run ticket) = w.traffic.replyTo? (.run ticket))
    (htimely : TimelyIn plan start published w phase) :
    TimelyIn plan start published w' phase := by
  cases phase with
  | created =>
      obtain ⟨hnoted, hrested, hnone, hnow⟩ := htimely
      exact ⟨h.noted hnoted, h.rested hrested, h.pauses.trans hnone, h.now.trans hnow⟩
  | querying number due =>
      obtain ⟨hnoted, hbusy⟩ := htimely
      exact ⟨h.noted hnoted, h.busy hbusy⟩
  | sending ticket event =>
      obtain ⟨heard, hnoted, hdelivery, hreason⟩ := htimely
      refine ⟨heard, h.noted hnoted, h.delivery (hreply ticket) hdelivery, ?_⟩
      exact hreason.imp h.busy fun ⟨hterminal, hrested, hmust⟩ =>
        ⟨hterminal, h.rested hrested, h.mustEnd hmust⟩
  | sleeping pause due =>
      obtain ⟨hnoted, hrested, hslumbers⟩ := htimely
      exact ⟨h.noted hnoted, h.rested hrested, h.slumbers hslumbers⟩
  | tidying pause defect =>
      cases defect with
      | none =>
          obtain ⟨hnoted, hrested, hreason⟩ := htimely
          exact ⟨h.noted hnoted, h.rested hrested,
            hreason.imp h.killed (Or.imp h.mustEnd h.ready)⟩
      | some d =>
          obtain ⟨hnoted, hrested, hlarge, huncounted⟩ := htimely
          exact ⟨h.noted hnoted, h.rested hrested, hlarge, h.uncounted huncounted⟩
  | ended how =>
      obtain ⟨heard, pending, hpublished, hpending, hdiary, hreason⟩ := htimely
      refine ⟨heard, pending, hpublished, ?_, h.diary hdiary, ?_⟩
      · exact hpending.imp_right fun ⟨d, instant, event, hhow, hhushed⟩ =>
          ⟨d, instant, event, hhow, { hhushed with ended := hended.trans hhushed.ended }⟩
      · refine hreason.imp h.busy fun ⟨hrested, hwhy⟩ => ⟨h.rested hrested, ?_⟩
        exact hwhy.imp h.killed (Or.imp h.mustEnd (Or.imp_left fun ⟨hhow, huncounted⟩ =>
          ⟨hhow, h.uncounted huncounted⟩))

end World.Still

/-! ### What a pause and a query add -/

omit [Clock τ] [Wait ω] [Spans ω τ] in
theorem World.queryTimes_withQuery (plan : Plan τ ω) (w : World τ ω) :
    (w.withQuery plan).queryTimes = w.queryTimes ++ [w.now] := by
  have hopened (w₁ : World τ ω) : (w₁.openClient plan).queryTimes = w₁.queryTimes := by
    rw [World.openClient]
    split_ifs <;> rfl
  change ((w.record (.query w.run.queries)).openClient plan).queryTimes = _
  rw [hopened]
  simp [World.queryTimes, World.record]

/-- The pause after an event is added to the schedule. -/
theorem Diary.pause {config : WaitConfig ω} {pauses : List (τ × ω)} {queries : List τ} {instant : τ}
    {event : Event τ} (h : Diary config start heard pauses queries)
    (hgoing : event.isTerminal = false) :
    Diary config start (heard ++ [(instant, event)])
      (pauses ++ [(instant, delayAfter config (heard.map Prod.snd) event)]) queries where
  going := by
    intro entry hentry
    rcases List.mem_append.mp hentry with hold | hnew
    · exact h.going entry hold
    · rw [List.mem_singleton.mp hnew]
      exact hgoing
  scheduled := by rw [schedule_concat, h.scheduled]
  first := h.first
  resumed number instant' hquery := by
    obtain ⟨begun, delay, hpause, hresumes⟩ := h.resumed number instant' hquery
    have hlength := (List.getElem?_eq_some_iff.mp hpause).1
    exact ⟨begun, delay, (List.getElem?_append_left hlength).trans hpause, hresumes⟩

/-- A query that is due is added to the queries. -/
theorem Diary.query {config : WaitConfig ω}
    (h : Diary config start heard w.pauses w.queryTimes) (hrested : w.Rested)
    (hready : w.Ready start) :
    Diary config start heard w.pauses (w.queryTimes ++ [w.now]) where
  going := h.going
  scheduled := h.scheduled
  first := by
    intro instant hinstant
    cases hqueries : w.queryTimes with
    | cons earliest queries =>
        rw [hqueries] at hinstant
        exact h.first instant (by rw [hqueries]; exact hinstant)
    | nil =>
        rw [hqueries] at hinstant
        obtain rfl := Option.some.inj hinstant
        rcases hready with ⟨_, hnow⟩ | ⟨begun, delay, hlast, _⟩
        · exact hnow
        · rw [World.Rested, hqueries, List.length_nil] at hrested
          rw [List.length_eq_zero_iff.mp hrested.symm] at hlast
          cases hlast
  resumed := by
    intro number instant hquery
    by_cases hold : number + 1 < w.queryTimes.length
    · rw [List.getElem?_append_left hold] at hquery
      exact h.resumed number instant hquery
    · -- the new query follows the last pause
      rw [List.getElem?_append_right (Nat.le_of_not_lt hold)] at hquery
      obtain ⟨hzero, hsame⟩ := List.getElem?_eq_some_iff.mp hquery
      simp only [List.length_singleton] at hzero
      simp only [List.getElem_singleton] at hsame
      subst hsame
      have hnumber : number + 1 = w.pauses.length := by
        have hlength : w.queryTimes.length = w.pauses.length := hrested
        omega
      rcases hready with ⟨hnone, _⟩ | ⟨begun, delay, hlast, hresumes⟩
      · rw [hnone, List.length_nil] at hnumber
        omega
      · refine ⟨begun, delay, ?_, hresumes⟩
        rw [List.getLast?_eq_getElem?, ← hnumber, Nat.add_sub_cancel] at hlast
        exact hlast

/-- A pause begins where a run that has heard of the acceptance of its event is about to pause. -/
theorem TimelyAt.begun {delay : ω} (h : TimelyAt plan start published w (.pausing delay))
    (hqueries : w'.queryTimes = w.queryTimes) (hgrace : w'.run.graceDue = w.run.graceDue)
    (hpauses : w'.pauses = w.pauses ++ [(w.now, delay)]) :
    Noted plan start published w' ∧ w'.Rested ∧ w'.pauses.getLast? = some (w.now, delay) := by
  obtain ⟨heard, event, rfl, hgoing, rfl, hdiary, hahead, hbusy⟩ := h
  refine ⟨⟨?_, ?_⟩, ?_, ?_⟩
  · rw [hpauses, hqueries]
    exact hdiary.pause hgoing
  · rwa [World.GraceAhead, hgrace]
  · rw [World.Rested, hqueries, hpauses, List.length_append]
    exact hbusy
  · rw [hpauses, List.getLast?_concat]

/-- A run whose pause is over is ready. -/
theorem World.Slumbers.ready {due : τ} (h : w.Slumbers due)
    (hreached : Clock.reached w.now due = true) : w.Ready start := by
  obtain ⟨begun, delay, span, hlast, hpositive, hspan, rfl, hkept⟩ := h
  exact .inr ⟨begun, delay, hlast, .later hpositive hspan hreached hkept⟩

namespace Delivery

variable {ticket : Nat} {event : Event τ} (h : Delivery published heard ticket event w)

include h

omit [Clock τ] [Wait ω] [Spans ω τ] in
/-- Once the stream has said that it took the event, the event is on the stream. -/
theorem of_sent (hreply : w.traffic.replyTo? (.run ticket) = some .sent) :
    published = heard ++ [(w.now, event)] := by
  cases h with
  | taken _ last => exact last
  | waiting unanswered _ => rw [hreply] at unanswered; cases unanswered
  | lost answered unsent _ =>
      exact absurd (Option.some.inj (hreply.symm.trans answered)).symm unsent

omit [Clock τ] [Wait ω] [Spans ω τ] in
theorem of_unsent {reply : Reply (Event τ)}
    (hreply : w.traffic.replyTo? (.run ticket) = some reply) (hunsent : reply ≠ .sent) :
    published = heard := by
  cases h with
  | taken answered _ => exact absurd (Option.some.inj (hreply.symm.trans answered)) hunsent
  | waiting _ all => exact all
  | lost _ _ all => exact all

omit [Clock τ] [Wait ω] [Spans ω τ] in
theorem of_unanswered (hnone : w.traffic.replyTo? (.run ticket) = none) : published = heard := by
  cases h with
  | waiting _ all => exact all
  | taken answered _ => rw [hnone] at answered; cases answered
  | lost _ _ all => exact all

end Delivery

/-! ### The grace period -/

namespace World.GraceAhead

variable {instant : τ} {event : Event τ} {config : WaitConfig ω} (h : w.GraceAhead heard)

include h

omit [Clock τ] [Spans ω τ] in
theorem delay_of_due (hdue : w.run.graceDue = true) (hkind : event.kind = .progress) :
    delayAfter config (heard.map Prod.snd) event = config.grace :=
  if_pos ⟨hkind, List.forall_mem_map.mpr (h.mp hdue)⟩

omit [Clock τ] [Spans ω τ] in
theorem delay_of_used (hused : w.run.graceDue = false) :
    delayAfter config (heard.map Prod.snd) event = config.pollInterval := by
  refine if_neg fun hfirst => ?_
  have hnone : ∀ entry ∈ heard, entry.2.kind ≠ .progress := fun entry hentry =>
    hfirst.2 entry.2 (List.mem_map_of_mem hentry)
  rw [h.mpr hnone] at hused
  cases hused

omit [Clock τ] [Wait ω] [Spans ω τ] in
/-- Another event leaves the grace period where it is, unless it is an observation that comes before
the grace period. -/
theorem concat (hsame : w'.run.graceDue = w.run.graceDue)
    (hother : event.kind = .progress → w.run.graceDue = false) :
    w'.GraceAhead (heard ++ [(instant, event)]) := by
  rw [World.GraceAhead, hsame, List.forall_mem_append, List.forall_mem_singleton]
  refine ⟨fun hdue => ⟨h.mp hdue, fun hkind => ?_⟩, fun hnone => h.mpr hnone.1⟩
  rw [hother hkind] at hdue
  cases hdue

end World.GraceAhead

omit [Clock τ] [Wait ω] [Spans ω τ] in
/-- After the grace period an observation was heard of. -/
theorem World.graceAhead_of_used {instant : τ} {event : Event τ} (hused : w.run.graceDue = false)
    (hkind : event.kind = .progress) : w.GraceAhead (heard ++ [(instant, event)]) := by
  rw [World.GraceAhead, hused]
  refine iff_of_false Bool.false_ne_true fun hnone => ?_
  exact hnone _ (List.mem_append_right heard (List.mem_singleton_self _)) hkind

/-! ### What the moves of a run lead to -/

theorem timely_ended {how : Ending} {pending : List (τ × Event τ)}
    (hphase : w'.run.phase = .ended how) (hstill : World.Still w w')
    (hdiary : Diary plan.config start heard w.pauses w.queryTimes)
    (hpublished : published = heard ++ pending)
    (hpending : (∀ entry ∈ pending, entry.2.isTerminal = true) ∨
      ∃ d instant event, how = .broken d ∧ Hushed plan heard pending w' d instant event)
    (hreason : w.Busy ∨ w.Rested ∧
      (w.run.killed = true ∨ w.MustEnd ∨ how = .broken .tooLarge ∧ w.Uncounted ∨
        ∃ d, how = .mute d)) :
    TimelyAt plan start published w' (.held : Point ω) := by
  change TimelyIn plan start published w' w'.run.phase
  rw [hphase]
  refine ⟨heard, pending, hpublished, hpending, hstill.diary hdiary, ?_⟩
  refine hreason.imp hstill.busy fun ⟨hrested, hwhy⟩ => ⟨hstill.rested hrested, ?_⟩
  exact hwhy.imp hstill.killed (Or.imp hstill.mustEnd (Or.imp_left fun ⟨hhow, huncounted⟩ =>
    ⟨hhow, hstill.uncounted huncounted⟩))

/-- A run that has nothing on its way is over. -/
theorem timely_ended_of_noted {how : Ending} (hphase : w'.run.phase = .ended how)
    (hstill : World.Still w w') (hnoted : Noted plan start published w)
    (hreason : w.Busy ∨ w.Rested ∧
      (w.run.killed = true ∨ w.MustEnd ∨ how = .broken .tooLarge ∧ w.Uncounted ∨
        ∃ d, how = .mute d)) :
    TimelyAt plan start published w' (.held : Point ω) :=
  timely_ended hphase hstill hnoted.diary (List.append_nil _).symm
    (.inl fun _ hentry => absurd hentry List.not_mem_nil) hreason

/-- A run is over that had an event on its way. -/
theorem timely_ended_of_sending {how : Ending} {ticket : Nat} {event : Event τ}
    (hphase : w'.run.phase = .ended how) (hstill : World.Still w w')
    (h : TimelyIn plan start published w (.sending ticket event))
    (hpending : ∀ heard, Delivery published heard ticket event w →
      ∃ pending, published = heard ++ pending ∧ ∀ entry ∈ pending, entry.2.isTerminal = true) :
    TimelyAt plan start published w' (.held : Point ω) := by
  obtain ⟨heard, hnoted, hdelivery, hreason⟩ := h
  obtain ⟨pending, hpublished, hterminal⟩ := hpending heard hdelivery
  refine timely_ended hphase hstill hnoted.diary hpublished (.inl hterminal) ?_
  exact hreason.imp id fun ⟨_, hrested, hmust⟩ => ⟨hrested, .inr (.inl hmust)⟩

/-- A run breaks because it cannot log what it has to log after an observation. -/
theorem timely_hushed {ticket : Nat} {snapshot : Snapshot τ} {d : Defect}
    (hphase : w'.run.phase = .ended (.broken d)) (hstill : World.Still w w')
    (hended : w'.endedAt = some w.now)
    (h : TimelyIn plan start published w (.sending ticket (.progress snapshot)))
    (hreply : w.traffic.replyTo? (.run ticket) = some .sent)
    (hspeaks : World.complaints plan snapshot ≠ [] ∨ w.run.graceDue = true)
    (hcause : World.sleepingLine plan = .error d ∨ Undated plan w.now ∧ d = .tooLarge) :
    TimelyAt plan start published w' (.held : Point ω) := by
  obtain ⟨heard, hnoted, hdelivery, hreason⟩ := h
  have hhushed : Hushed plan heard [(w.now, .progress snapshot)] w' d w.now (.progress snapshot) :=
    { newest := rfl
      going := rfl
      speaks := ⟨snapshot, rfl, hspeaks.imp_right fun hdue =>
        List.forall_mem_map.mpr (hnoted.grace.mp hdue)⟩
      ended := hended
      cause := hcause }
  refine timely_ended hphase hstill hnoted.diary (hdelivery.of_sent hreply)
    (.inr ⟨d, w.now, _, rfl, hhushed⟩) ?_
  exact hreason.imp_right fun ⟨hterminal, _⟩ => by cases hterminal

/-- A run offers an event to the stream. -/
theorem timely_send {ticket : Nat} {event : Event τ} (hphase : w'.run.phase = .sending ticket event)
    (hstill : World.Still w w') (hunanswered : w'.traffic.replyTo? (.run ticket) = none)
    (hnoted : Noted plan start published w)
    (hreason : w.Busy ∨ event.isTerminal = true ∧ w.Rested ∧ w.MustEnd) :
    TimelyAt plan start published w' (.held : Point ω) := by
  change TimelyIn plan start published w' w'.run.phase
  rw [hphase]
  refine ⟨published, hstill.noted hnoted, .waiting hunanswered rfl, ?_⟩
  exact hreason.imp hstill.busy fun ⟨hterminal, hrested, hmust⟩ =>
    ⟨hterminal, hstill.rested hrested, hstill.mustEnd hmust⟩

/-- An event that was accepted and does not end the watch leads to its pause. -/
theorem timely_pausing {ticket : Nat} {event : Event τ} {delay : ω}
    (h : TimelyIn plan start published w (.sending ticket event))
    (hreply : w.traffic.replyTo? (.run ticket) = some .sent) (hgoing : event.isTerminal = false)
    (hnow : w'.now = w.now) (hpauses : w'.pauses = w.pauses)
    (hqueries : w'.queryTimes = w.queryTimes)
    (hrule : ∀ heard, w.GraceAhead heard →
      delay = delayAfter plan.config (heard.map Prod.snd) event ∧
        w'.GraceAhead (heard ++ [(w.now, event)])) :
    TimelyAt plan start published w' (.pausing delay) := by
  obtain ⟨heard, hnoted, hdelivery, hreason⟩ := h
  obtain ⟨hdelay, hgrace⟩ := hrule heard hnoted.grace
  have hlast := hdelivery.of_sent hreply
  have hbusy : w.Busy := by
    rcases hreason with hbusy | ⟨hterminal, _⟩
    · exact hbusy
    · rw [hgoing] at hterminal
      cases hterminal
  refine ⟨heard, event, by rw [hnow, hlast], hgoing, hdelay, ?_, by rwa [hlast], ?_⟩
  · rw [hpauses, hqueries]
    exact hnoted.diary
  · rwa [World.Busy, hqueries, hpauses]

/-- A run that is ready asks. -/
theorem timely_asked {number : Nat} (hquery : w'.queryTimes = w.queryTimes ++ [w.now])
    (hpauses : w'.pauses = w.pauses) (hgrace : w'.run.graceDue = w.run.graceDue)
    (hnoted : Noted plan start published w) (hrested : w.Rested) (hready : w.Ready start) :
    TimelyAt plan start published w' (.asked number) := by
  refine ⟨⟨?_, ?_⟩, ?_⟩
  · rw [hpauses, hquery]
    exact hnoted.diary.query hrested hready
  · rw [World.GraceAhead, hgrace]
    exact hnoted.grace
  · rw [World.Busy, hpauses, hquery, List.length_append]
    exact congrArg (· + 1) hrested

/-- A run that sleeps is woken when its pause is over, or when it is to end. -/
theorem timely_tidying {pause : Nat} {due : τ} (hphase : w'.run.phase = .tidying pause none)
    (hstill : World.Still w w') (h : TimelyIn plan start published w (.sleeping pause due))
    (hmanned : w.fullyGuarded pause = true ∨ w.MustEnd)
    (hreason : w.run.killed = true ∨ Clock.reached w.now due = true ∨
      w.fullyGuarded pause = false) :
    TimelyAt plan start published w' (.held : Point ω) := by
  change TimelyIn plan start published w' w'.run.phase
  rw [hphase]
  obtain ⟨hnoted, hrested, hslumbers⟩ := h
  refine ⟨hstill.noted hnoted, hstill.rested hrested, ?_⟩
  rcases hreason with hkilled | hreached | hunguarded
  · exact .inl (hstill.killed hkilled)
  · exact .inr (.inr (hstill.ready (hslumbers.ready hreached)))
  · -- a guard has left its post
    rcases hmanned with hguarded | hmust
    · rw [hguarded] at hunguarded
      cases hunguarded
    · exact .inr (.inl (hstill.mustEnd hmust))

/-- So does every run that breaks because it cannot log something. -/
theorem World.Choke.timely {p : Point ω} {w₁ : World τ ω} {d : Defect}
    (hchoke : World.Choke plan w p w₁ d) (hstill : World.Still w (w₁.breakDown (.broken d)))
    (hnow : w₁.now = w.now) (h : TimelyAt plan start published w p) :
    TimelyAt plan start published (w₁.breakDown (.broken d)) (.held : Point ω) := by
  have hended : (w₁.breakDown (.broken d)).endedAt = some w.now :=
    hnow ▸ w₁.endedAt_breakDown (.broken d)
  cases hchoke with
  | @abort note event reason _ =>
      have hmust : w.MustEnd := by
        by_contra hgoing
        rw [World.abort?_eq_none.mpr hgoing] at reason
        cases reason
      exact timely_ended_of_noted rfl hstill h.1 (.inr ⟨h.2.1, .inr (.inl hmust)⟩)
  | outcome _ _ _ => exact timely_ended_of_noted rfl hstill h.1 (.inl h.2)
  | revoke _ => exact timely_ended_of_noted rfl hstill h.1 (.inl h.2)
  | complaint phase reply failed undated =>
      exact timely_hushed rfl hstill hended (timelyIn_of_phase phase h) reply (.inl failed)
        (.inr ⟨undated_of_not_canRecord undated, rfl⟩)
  | grace phase reply first cause _ =>
      rw [w.run_withHook] at first
      exact timely_hushed rfl hstill hended (timelyIn_of_phase phase h) reply (.inr first)
        (cause.imp_right fun hundated => ⟨undated_of_not_canRecord hundated.1, hundated.2⟩)
  | interrupt phase _ _ =>
      obtain ⟨hnoted, hbusy⟩ := timelyIn_of_phase phase h
      exact timely_ended_of_noted rfl hstill hnoted (.inl hbusy)
  | retract phase answered unsent _ _ =>
      exact timely_ended_of_sending rfl hstill (timelyIn_of_phase phase h)
        fun _ hdelivery => ⟨[], by simpa using hdelivery.of_unsent answered unsent, by simp⟩
  | @leave pause defect phase _ killed _ =>
      have hbefore := timelyIn_of_phase phase h
      have hnoted : Noted plan start published w := by cases defect <;> exact hbefore.1
      have hrested : w.Rested := by cases defect <;> exact hbefore.2.1
      exact timely_ended_of_noted rfl hstill hnoted (.inr ⟨hrested, .inl killed⟩)

/-- Every move of a run keeps to the timetable. -/
theorem World.Move.timely {p p' : Point ω} (hmove : World.Move plan w p p' w')
    (hfresh : w.traffic.replyTo? (.run w.run.sends) = none) (hmanned : MannedAt w p)
    (h : TimelyAt plan start published w p) : TimelyAt plan start published w' p' := by
  have hmoved := hmove
  have hunanswered {w₁ : World τ ω} {event : Event τ} (hbooks : w₁.books = w.books) :
      (w₁.send event).traffic.replyTo? (.run w₁.run.sends) = none := by
    have htraffic : w₁.traffic = w.traffic := congrArg Books.traffic hbooks
    have hrun : w₁.run = w.run := congrArg Books.run hbooks
    rw [Stream.Traffic.replyTo?_of_finished_eq (World.send_finished _ _), htraffic, hrun]
    exact hfresh
  cases hmove with
  | skip phase killed =>
      obtain ⟨hnoted, hrested, _, _⟩ := timelyIn_of_phase phase h
      exact timely_ended_of_noted rfl (hmoved.still rfl rfl rfl) hnoted
        (.inr ⟨hrested, .inl killed⟩)
  | mute phase _ _ =>
      obtain ⟨hnoted, hrested, _, _⟩ := timelyIn_of_phase phase h
      exact timely_ended_of_noted rfl (hmoved.still rfl rfl rfl) hnoted
        (.inr ⟨hrested, .inr (.inr (.inr ⟨_, rfl⟩))⟩)
  | choke cause =>
      have hstill := hmoved.still cause.isPausing_eq rfl rfl
      exact cause.timely hstill (congrArg Books.now cause.books) h
  | start phase _ _ _ =>
      obtain ⟨hnoted, hrested, hnone, hnow⟩ := timelyIn_of_phase phase h
      have hstill := hmoved.still rfl rfl rfl
      exact ⟨hstill.noted hnoted, hstill.rested hrested, .inr (hstill.ready (.inl ⟨hnone, hnow⟩))⟩
  | @abort note event reason dated =>
      obtain ⟨hnoted, hrested, _⟩ := h
      have hmust : w.MustEnd := by
        by_contra hgoing
        rw [World.abort?_eq_none.mpr hgoing] at reason
        cases reason
      exact timely_send rfl (hmoved.still rfl rfl rfl) (hunanswered (w.books_note note)) hnoted
        (.inr ⟨(isAbort_of_abort? reason).isTerminal, hrested, hmust⟩)
  | ask noReason =>
      obtain ⟨hnoted, hrested, hdue⟩ := h
      exact timely_asked (w.queryTimes_withQuery plan) (hmoved.pauses_eq rfl)
        (hmoved.graceDue_eq rfl) hnoted hrested
        (hdue.resolve_left (World.abort?_eq_none.mp noReason))
  | wait _ =>
      have hstill := hmoved.still rfl rfl rfl
      exact ⟨hstill.noted h.1, hstill.busy h.2⟩
  | atOnce _ => exact h
  | inTime phase _ _ => exact timelyIn_of_phase phase h
  | interrupt phase _ _ =>
      obtain ⟨hnoted, hbusy⟩ := timelyIn_of_phase phase h
      exact timely_ended_of_noted rfl (hmoved.still rfl rfl rfl) hnoted (.inl hbusy)
  | answer =>
      have hstill := hmoved.still rfl rfl rfl
      exact ⟨hstill.noted h.1, hstill.busy h.2⟩
  | revoke _ => exact timely_ended_of_noted rfl (hmoved.still rfl rfl rfl) h.1 (.inl h.2)
  | fail _ _ => exact timely_ended_of_noted rfl (hmoved.still rfl rfl rfl) h.1 (.inl h.2)
  | publish _ _ =>
      exact timely_send rfl (hmoved.still rfl rfl rfl) (hunanswered (w.books_noteAll _)) h.1
        (.inl h.2)
  | finish phase reply terminal =>
      exact timely_ended_of_sending rfl (hmoved.still rfl rfl rfl) (timelyIn_of_phase phase h)
        fun _ hdelivery => ⟨_, hdelivery.of_sent reply, by simpa using terminal⟩
  | @grace ticket snapshot line phase reply first sleeping dated =>
      rw [w.run_withHook] at first
      refine timely_pausing (timelyIn_of_phase phase h) reply rfl hmoved.now_eq
        (hmoved.pauses_eq rfl) (hmoved.queryTimes_eq rfl) fun heard hahead => ?_
      exact ⟨(hahead.delay_of_due first rfl).symm, World.graceAhead_of_used rfl rfl⟩
  | @progress ticket snapshot phase reply later dated =>
      rw [w.run_withHook] at later
      refine timely_pausing (timelyIn_of_phase phase h) reply rfl hmoved.now_eq
        (hmoved.pauses_eq rfl) (hmoved.queryTimes_eq rfl) fun heard hahead => ?_
      exact ⟨(hahead.delay_of_used later).symm,
        hahead.concat (by rw [w.run_withHook]) fun _ => later⟩
  | @retry ticket event phase reply terminal noSnapshot =>
      have hkind : event.kind ≠ .progress := by
        cases event <;> simp_all [Event.kind, Event.snapshot?]
      exact timely_pausing (timelyIn_of_phase phase h) reply terminal rfl rfl rfl fun heard hahead =>
        ⟨(delayAfter_of_ne hkind).symm, hahead.concat rfl fun hprogress => absurd hprogress hkind⟩
  | refuse phase reply =>
      exact timely_ended_of_sending rfl (hmoved.still rfl rfl rfl) (timelyIn_of_phase phase h)
        fun _ hdelivery => ⟨[], by simpa using hdelivery.of_unsent reply (by simp), by simp⟩
  | retract phase answered unsent undenied dated =>
      exact timely_ended_of_sending rfl (hmoved.still rfl rfl rfl) (timelyIn_of_phase phase h)
        fun _ hdelivery => ⟨[], by simpa using hdelivery.of_unsent answered unsent, by simp⟩
  | @sleep delay span positive length =>
      obtain ⟨hnoted, hrested, hlast⟩ := h.begun (hmoved.queryTimes_eq rfl)
        (hmoved.graceDue_eq rfl) (w.pauses_record_paused delay)
      exact ⟨hnoted, hrested, w.now, delay, span, hlast, positive, length, rfl, .inl rfl⟩
  | @overrun delay positive length =>
      obtain ⟨hnoted, hrested, hlast⟩ := h.begun (hmoved.queryTimes_eq rfl)
        (hmoved.graceDue_eq rfl) (w.pauses_record_paused delay)
      exact ⟨hnoted, hrested, rfl, w.now, delay, hlast, positive, length⟩
  | @hurry delay positive =>
      obtain ⟨hnoted, hrested, hlast⟩ := h.begun (hmoved.queryTimes_eq rfl)
        (hmoved.graceDue_eq rfl) (w.pauses_record_paused delay)
      exact ⟨hnoted, hrested, .inr (.inr ⟨w.now, delay, hlast, .atOnce positive rfl⟩)⟩
  | wake phase reason =>
      exact timely_tidying rfl (hmoved.still rfl rfl rfl) (timelyIn_of_phase phase h)
        (hmanned _ _ phase) reason
  | @leave pause defect phase tidy killed dated =>
      have hbefore := timelyIn_of_phase phase h
      have hnoted : Noted plan start published w := by cases defect <;> exact hbefore.1
      have hrested : w.Rested := by cases defect <;> exact hbefore.2.1
      exact timely_ended_of_noted rfl (hmoved.still rfl rfl rfl) hnoted
        (.inr ⟨hrested, .inl killed⟩)
  | collapse phase tidy alive =>
      obtain ⟨hnoted, hrested, rfl, huncounted⟩ := timelyIn_of_phase phase h
      exact timely_ended_of_noted rfl (hmoved.still rfl rfl rfl) hnoted
        (.inr ⟨hrested, .inr (.inr (.inl ⟨rfl, huncounted⟩))⟩)
  | rise phase tidy alive =>
      obtain ⟨hnoted, hrested, hreason⟩ := timelyIn_of_phase phase h
      refine ⟨hnoted, hrested, hreason.resolve_left ?_⟩
      rw [alive]
      exact Bool.false_ne_true

end Cadence

end Vigil.Watch
