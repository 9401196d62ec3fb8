import Vigil.Proofs.Watch.Cadence

/-!
# A watch is punctual

Whatever happens around a run, its pauses follow the timetable and its queries follow its pauses.
The clock stands still until the run has heard that its event was accepted, so a pause begins at the
instant of the acceptance; and it does not pass the end of a pause, so the next query begins there.
-/

namespace Vigil.Watch

open Vigil.Number (Amount pow10)
open Vigil.Stream (Traffic)

variable {τ ω : Type} [Clock τ] [Wait ω] [Spans ω τ]
variable {plan : Plan τ ω} {start : τ} {published heard : List (τ × Event τ)}
variable {w w' : World τ ω}

/-! ### In the course of a run -/

/-- A run that keeps to its timetable, with what that rests on. -/
structure Timely (plan : Plan τ ω) (start : τ) (published : List (τ × Event τ)) (point : Point ω)
    (w : World τ ω) : Prop where
  posting : Posting plan point w.books
  guarded : GuardedAt w point
  manned : World.MannedAt w point
  cadence : TimelyAt plan start published w point

theorem timely_stable (plan : Plan τ ω) (start : τ) (published : List (τ × Event τ)) :
    World.Stable plan fun point w => Timely plan start published point w :=
  fun _ _ _ _ hmove h =>
    { posting := posting_stable hmove h.posting
      guarded := World.guarded_stable hmove h.guarded
      manned := World.manned_stable hmove h.manned
      cadence := hmove.timely (h.posting.fresh _ (Nat.le_refl _)) h.manned h.cadence }

/-- A step of a run puts nothing on the stream but the last event of a cancelled task. -/
theorem Timely.stepRun (h : Timely plan start published (.held : Point ω) w)
    (hgo : w.runCanGo = true) :
    TimelyIn plan start (published ++ w.publishedBy (w.stepRun plan) .run) (w.stepRun plan)
      (w.stepRun plan).run.phase := by
  have hstep := (timely_stable plan start published).stepRun hgo h
  rw [World.publishedBy, World.saidBy]
  rcases World.stepRun_accepted plan hgo with haccepted | ⟨haccepted, hphase⟩
  · rw [haccepted, List.drop_length, List.map_nil, List.append_nil]
    exact hstep.cadence
  · obtain ⟨heard, pending, rfl, hpending, hwhy⟩ := timelyIn_of_phase hphase hstep.cadence
    have hterminal : ∀ entry ∈ pending, entry.2.isTerminal = true := by
      refine hpending.resolve_right ?_
      rintro ⟨_, _, _, hhow, _⟩
      cases hhow
    rw [haccepted, List.drop_left, hphase, List.append_assoc]
    refine ⟨heard, _, rfl, .inl fun entry hentry => ?_, hwhy⟩
    rcases List.mem_append.mp hentry with hold | hnew
    · exact hterminal entry hold
    · rw [List.mem_singleton.mp hnew]
      rfl

/-- Somebody looks at the stream. -/
theorem Timely.serve (h : Timely plan start published (.held : Point ω) w) (position : Nat) :
    TimelyIn plan start
      (published ++
        w.publishedBy { w with traffic := w.traffic.serveAt position } (.serve position))
      { w with traffic := w.traffic.serveAt position } w.run.phase := by
  have hstill : World.Still w { w with traffic := w.traffic.serveAt position } :=
    ⟨rfl, rfl, rfl, rfl, id, id⟩
  have hheard {ticket : Nat} {event : Event τ} (hphase : w.run.phase = .sending ticket event)
      (hnone : w.traffic.replyTo? (.run ticket) = none) :
      Noted plan start published { w with traffic := w.traffic.serveAt position } ∧
        (w.Busy ∨ event.isTerminal = true ∧ w.Rested ∧ w.MustEnd) := by
    obtain ⟨heard, hnoted, hdelivery, hreason⟩ := timelyIn_of_phase hphase h.cadence
    obtain rfl := hdelivery.of_unanswered hnone
    exact ⟨hstill.noted hnoted, hreason⟩
  rw [World.publishedBy]
  cases h.posting.glance position with
  | nothing replies silent =>
      rw [silent, List.map_nil, List.append_nil]
      exact hstill.timelyIn rfl replies h.cadence
  | sent phase unanswered answered said =>
      obtain ⟨hnoted, hreason⟩ := hheard phase unanswered
      rw [said, phase]
      exact ⟨published, hnoted, .taken answered rfl, hreason⟩
  | denied phase unanswered answered silent =>
      obtain ⟨hnoted, hreason⟩ := hheard phase unanswered
      rw [silent, List.map_nil, List.append_nil, phase]
      exact ⟨published, hnoted, .lost answered (by simp) rfl, hreason⟩
  | withdrawn phase unanswered answered _ silent =>
      obtain ⟨hnoted, hreason⟩ := hheard phase unanswered
      rw [silent, List.map_nil, List.append_nil, phase]
      exact ⟨published, hnoted, .lost answered (by simp) rfl, hreason⟩

/-- Time passes, though not beyond the end of a pause, and not before the run has heard what became
of its event. -/
theorem Timely.passTime [OrderedClock τ] {goal : τ}
    (h : Timely plan start published (.held : Point ω) w) (hsettled : w.isSettled = true)
    (hlater : Clock.lt w.now goal = true) (htimers : ∀ due ∈ w.timers, Clock.lt due goal = false) :
    TimelyIn plan start published { w with now := goal } w.run.phase := by
  obtain ⟨hrun, _⟩ := World.resting_of_settled hsettled
  have hnoted {heard : List (τ × Event τ)} (hnoted : Noted plan start heard w) :
      Noted plan start heard { w with now := goal } := ⟨hnoted.diary, hnoted.grace⟩
  rw [World.runCanGo] at hrun
  cases hphase : w.run.phase with
  | created =>
      rw [hphase] at hrun
      cases hrun
  | querying number due =>
      obtain ⟨hbefore, hbusy⟩ := timelyIn_of_phase hphase h.cadence
      exact ⟨hnoted hbefore, hbusy⟩
  | sending ticket event =>
      obtain ⟨heard, hbefore, hdelivery, hreason⟩ := timelyIn_of_phase hphase h.cadence
      simp only [hphase, Option.isSome_eq_false_iff, Option.isNone_iff_eq_none] at hrun
      refine ⟨heard, hnoted hbefore, .waiting hrun (hdelivery.of_unanswered hrun), ?_⟩
      rcases hreason with hbusy | ⟨hterminal, hrested, hmust⟩
      · exact .inl hbusy
      · exact .inr ⟨hterminal, hrested, hmust.later hlater⟩
  | sleeping pause due =>
      obtain ⟨hbefore, hrested, begun, delay, span, hlast, hpositive, hspan, hdue, _⟩ :=
        timelyIn_of_phase hphase h.cadence
      have hkept : Clock.lt due goal = false := htimers due (by simp [World.timers, hphase])
      exact ⟨hnoted hbefore, hrested, begun, delay, span, hlast, hpositive, hspan, hdue,
        .inr hkept⟩
  | tidying pause defect =>
      exact absurd hphase (World.not_tidying_of_settled h.guarded hsettled pause defect)
  | ended how =>
      obtain ⟨heard, pending, hpublished, hpending, hdiary, hreason⟩ :=
        timelyIn_of_phase hphase h.cadence
      refine ⟨heard, pending, hpublished, ?_, hdiary, ?_⟩
      · refine hpending.imp_right ?_
        rintro ⟨d, instant, event, hhow, hhushed⟩
        exact ⟨d, instant, event, hhow, hhushed.newest, hhushed.going, hhushed.speaks,
          hhushed.ended, hhushed.cause⟩
      · rcases hreason with hbusy | ⟨hrested, hkilled | hmust | hbroken⟩
        · exact .inl hbusy
        · exact .inr ⟨hrested, .inl hkilled⟩
        · exact .inr ⟨hrested, .inr (.inl (hmust.later hlater))⟩
        · exact .inr ⟨hrested, .inr (.inr hbroken)⟩

/-- Nothing moves the timetable on but the run, the clock and a look at the stream. -/
theorem World.Acts.still {action : Action τ} (h : World.Acts plan w action w')
    (haside : action.isAside = true) (hclock : ∀ goal, action ≠ .passTime goal) :
    World.Still w w' := by
  cases h with
  | run _ => cases haside
  | serve _ => cases haside
  | passTime _ _ _ => exact absurd rfl (hclock _)
  | helper _ _ => exact ⟨rfl, rfl, rfl, rfl, id, id⟩
  | @trigger t => cases t <;> exact ⟨rfl, rfl, rfl, rfl, id, fun _ => .inl (w.signalled_trigger _)⟩
  | kill _ =>
      rw [World.kill]
      split
      · exact ⟨rfl, rfl, rfl, rfl, id, id⟩
      · exact ⟨rfl, rfl, rfl, rfl, fun _ => rfl, id⟩
      · exact ⟨rfl, rfl, rfl, rfl, fun _ => rfl, id⟩
  | ask => exact ⟨rfl, rfl, rfl, rfl, id, id⟩
  | withdraw => exact ⟨rfl, rfl, rfl, rfl, id, id⟩

/-- Whatever happens, a run keeps to its timetable. -/
theorem Timely.act [OrderedClock τ] {action : Action τ}
    (h : Timely plan start published (.held : Point ω) w) (hact : w.act? plan action = some w') :
    Timely plan start (published ++ w.publishedBy w' action) (.held : Point ω) w' := by
  have hacts := World.acts_of_act? hact
  have hmanned := World.manned_invariant.act trivial hact ⟨h.guarded, h.manned⟩
  refine ⟨posting_invariant.act trivial hact h.posting, hmanned.1, hmanned.2, ?_⟩
  change TimelyIn plan start (published ++ w.publishedBy w' action) w' w'.run.phase
  have hsilent (haside : action.isAside = true) :
      published ++ w.publishedBy w' action = published := by
    rw [World.publishedBy, World.saidBy_of_isAside haside, List.map_nil, List.append_nil]
  have hsteady (haside : action.isAside = true) (hclock : ∀ goal, action ≠ .passTime goal) :
      TimelyIn plan start (published ++ w.publishedBy w' action) w' w'.run.phase := by
    have hother := Action.ne_run_of_isAside haside
    have hended : w'.endedAt = w.endedAt := by
      rw [World.endedAt, World.endedAt, hacts.journal_eq hother]
    rw [hsilent haside, hacts.phase_eq hother]
    exact (hacts.still haside hclock).timelyIn hended
      (fun _ => Traffic.replyTo?_of_finished_eq (hacts.finished_eq haside)) h.cadence
  cases hacts with
  | run hgo => exact h.stepRun hgo
  | serve _ => exact h.serve _
  | passTime hsettled hlater htimers =>
      rw [hsilent rfl]
      exact h.passTime hsettled hlater htimers
  | _ => exact hsteady rfl (by simp)

theorem Timely.actAll [OrderedClock τ] {actions : List (Action τ)}
    (h : Timely plan start published (.held : Point ω) w)
    (hact : w.actAll? plan actions = some w') :
    Timely plan start (published ++ w.publications plan actions) (.held : Point ω) w' := by
  induction actions generalizing w published with
  | nil =>
      cases hact
      rwa [World.publications, List.append_nil]
  | cons action actions ih =>
      obtain ⟨middle, hmiddle, hact⟩ := World.exists_of_actAll?_cons hact
      have hrest := ih (h.act hmiddle) hact
      rwa [World.publications, hmiddle, ← List.append_assoc]

/-- A watch that has not begun is on its timetable. -/
theorem timely_start (plan : Plan τ ω) (now : τ) (cancellation : Cancellation τ) (stopped : Bool)
    (stream : Stream (Event τ)) :
    Timely plan now [] (.held : Point ω) (World.start now cancellation stopped stream) where
  posting := ⟨fun _ _ => rfl, rfl, rfl⟩
  guarded := rfl
  manned := fun _ _ hphase => by cases hphase
  cadence :=
    have hdiary : Diary plan.config now [] [] [] :=
      ⟨by simp, rfl, by simp, by simp⟩
    ⟨⟨hdiary, iff_of_true rfl (by simp)⟩, rfl, rfl, rfl⟩

/-! ### Going to sleep -/

theorem World.pause_eq_sleep {delay : ω} {span : τ} (hpositive : Wait.isPositive delay = true)
    (hspan : (Spans.span? delay : Option τ) = some span) :
    w.pause plan delay =
      (w.withPause delay).goTo (.sleeping w.run.pauses (Clock.add w.now span)) := by
  simp only [World.pause, hpositive, hspan, if_true]
  rfl

theorem World.pause_eq_overrun {delay : ω} (hpositive : Wait.isPositive delay = true)
    (hspan : (Spans.span? delay : Option τ) = none) :
    w.pause plan delay =
      ((w.withPause delay).dismissHelpers w.run.pauses).goTo
        (.tidying w.run.pauses (some .tooLarge)) := by
  simp only [World.pause, hpositive, hspan, if_true]
  rfl

/-- What a run does after an event that was accepted and does not end the watch. -/
inductive Follows (plan : Plan τ ω) (earlier : List (Event τ)) (event : Event τ) (w : World τ ω) :
    World τ ω → Prop
  /-- It pauses, at the same instant. -/
  | pauses {w₁ : World τ ω} (advance : World.Advance plan w w₁)
      (silent : SpeaksAfter plan earlier event → ¬Undated plan w.now) :
      Follows plan earlier event w (w₁.pause plan (delayAfter plan.config earlier event))
  /-- It breaks, because it cannot log what it has to log before. -/
  | breaks {w₁ : World τ ω} (advance : World.Advance plan w w₁)
      (speaks : SpeaksAfter plan earlier event) (undated : Undated plan w.now) :
      Follows plan earlier event w (w₁.breakDown (.broken .tooLarge))

omit [Wait ω] [Spans ω τ] in
theorem not_undated_of_canRecord (h : w.CanRecord plan) : ¬Undated plan w.now :=
  fun hundated => Bool.false_ne_true (hundated.symm.trans h)

theorem follows_rest {snapshot : Snapshot τ} {line : Log.Note} (hgrace : w.GraceAhead heard)
    (hline : World.sleepingLine plan = .ok line)
    (hdated : World.complaints plan snapshot = [] ∨ w.CanRecord plan) :
    Follows plan (heard.map Prod.snd) (.progress snapshot) w
      ((w.withHook plan snapshot).rest plan) := by
  have hhooked : World.Advance plan w (w.withHook plan snapshot) := .withHook w snapshot
  have hcan := World.canRecord_congr plan hhooked.now
  rw [World.rest, w.run_withHook]
  cases hdue : w.run.graceDue with
  | false =>
      simp only [Bool.false_eq_true, if_false]
      have hdelay : delayAfter plan.config (heard.map Prod.snd) (.progress snapshot) =
          plan.config.pollInterval := hgrace.delay_of_used hdue
      rw [← hdelay]
      refine .pauses hhooked ?_
      rintro ⟨_, heq, hreason⟩
      obtain rfl := Event.progress.inj heq
      rcases hreason with hsome | hnone
      · exact not_undated_of_canRecord (hdated.resolve_left hsome)
      · have hahead := hgrace.mpr fun entry hentry =>
          hnone entry.2 (List.mem_map_of_mem hentry)
        rw [hdue] at hahead
        cases hahead
  | true =>
      simp only [if_true]
      by_cases hrecord : w.CanRecord plan
      · have hdelay : delayAfter plan.config (heard.map Prod.snd) (.progress snapshot) =
            plan.config.grace := hgrace.delay_of_due hdue rfl
        have hlog : (World.sleepingLine plan >>= (w.withHook plan snapshot).log plan) =
            .ok ((w.withHook plan snapshot).note line) := by
          rw [hline]
          exact World.log_of_canRecord (hcan.mpr hrecord)
        rw [← hdelay, hlog]
        have hgraced : World.Advance plan w ((w.withHook plan snapshot).withGrace line) :=
          (hhooked.trans (World.Advance.note _ line)).trans (World.Advance.of_eq rfl rfl rfl rfl)
        exact .pauses hgraced fun _ => not_undated_of_canRecord hrecord
      · have hlog : (World.sleepingLine plan >>= (w.withHook plan snapshot).log plan) =
            .error .tooLarge := by
          rw [hline]
          exact World.log_of_not_canRecord (hrecord ∘ hcan.mp)
        rw [hlog]
        exact .breaks hhooked ⟨snapshot, rfl, .inr (List.forall_mem_map.mpr (hgrace.mp hdue))⟩
          (undated_of_not_canRecord hrecord)

theorem follows_afterSend {event : Event τ} {line : Log.Note} (hgoing : event.isTerminal = false)
    (hgrace : w.GraceAhead heard) (hline : World.sleepingLine plan = .ok line) :
    Follows plan (heard.map Prod.snd) event w (w.afterSend plan event) := by
  have hpauses (hkind : event.kind ≠ .progress) :
      Follows plan (heard.map Prod.snd) event w (w.pause plan plan.config.pollInterval) := by
    have hdelay : delayAfter plan.config (heard.map Prod.snd) event = plan.config.pollInterval :=
      delayAfter_of_ne hkind
    rw [← hdelay]
    refine .pauses (World.Advance.refl w) ?_
    rintro ⟨_, rfl, _⟩
    exact absurd rfl hkind
  unfold World.afterSend
  simp only [hgoing, Bool.false_eq_true, if_false]
  cases event with
  | progress snapshot =>
      have hcan := World.canRecord_congr plan (w.now_callHook plan snapshot)
      by_cases hdated : World.complaints plan snapshot = [] ∨ w.CanRecord plan
      · simp only [World.logAll_of_canRecord (hdated.imp_right hcan.mpr)]
        exact follows_rest hgrace hline hdated
      · obtain ⟨hsome, hundated⟩ := not_or.mp hdated
        simp only [World.logAll_of_not_canRecord hsome (hundated ∘ hcan.mp)]
        exact .breaks (World.Advance.callHook w snapshot) ⟨snapshot, rfl, .inl hsome⟩
          (undated_of_not_canRecord hundated)
  | queryError f => exact hpauses (by simp [Event.kind])
  | emptyResponse f => exact hpauses (by simp [Event.kind])
  | desired snapshot => cases hgoing
  | absent => cases hgoing
  | failed snapshot f => cases hgoing
  | notFound f => cases hgoing
  | cancelled f => cases hgoing
  | stopped f => cases hgoing

/-- After an event that was accepted at an instant the run cannot pause: it has something to log
before, of which no record can be made, or the clock cannot count the pause. -/
def Stranded (plan : Plan τ ω) (instant : τ) (earlier : List (Event τ)) (event : Event τ) : Prop :=
  SpeaksAfter plan earlier event ∧ Undated plan instant ∨
    Wait.isPositive (delayAfter plan.config earlier event) = true ∧
      (Spans.span? (delayAfter plan.config earlier event) : Option τ) = none

/-- A run that cannot pause clears away the helpers of the pause at some instant, or it is over. -/
def World.Falls (instant : τ) (times : List τ) (w : World τ ω) : Prop :=
  w.queryTimes = times ∧
    ((∃ pause, w.run.phase = .tidying pause (some .tooLarge)) ∧ w.now = instant ∨
      ∃ how, w.run.phase = .ended how ∧
        (w.run.killed = true ∨ how = .broken .tooLarge ∧ w.endedAt = some instant))

/-- What the step of a run leads to that hears of the acceptance of its event. -/
theorem Follows.outcome {earlier : List (Event τ)} {event : Event τ}
    (h : Follows plan earlier event w w') :
    (¬Stranded plan w.now earlier event →
      Wait.isPositive (delayAfter plan.config earlier event) = true →
        ∃ pause span, Spans.span? (delayAfter plan.config earlier event) = some span ∧
          w'.run.phase = .sleeping pause (Clock.add w.now span)) ∧
      (Stranded plan w.now earlier event → w'.Falls w.now w.queryTimes) := by
  cases h with
  | @pauses w₁ advance silent =>
      refine ⟨fun hfit hpositive => ?_, fun hstranded => ?_⟩
      · obtain ⟨span, hspan⟩ := Option.ne_none_iff_exists'.mp fun hnone =>
          hfit (.inr ⟨hpositive, hnone⟩)
        rw [World.pause_eq_sleep hpositive hspan, advance.now]
        exact ⟨w₁.run.pauses, span, hspan, rfl⟩
      · obtain ⟨hspeaks, hundated⟩ | ⟨hpositive, hspan⟩ := hstranded
        · exact absurd hundated (silent hspeaks)
        · rw [World.pause_eq_overrun hpositive hspan]
          have hmove : World.Move plan w₁ _ .held _ := .overrun hpositive hspan
          exact ⟨(hmove.queryTimes_eq rfl).trans advance.queryTimes,
            .inl ⟨⟨w₁.run.pauses, rfl⟩, hmove.now_eq.trans advance.now⟩⟩
  | @breaks w₁ advance speaks undated =>
      refine ⟨fun hfit _ => absurd (.inl ⟨speaks, undated⟩) hfit, fun _ => ⟨?_, ?_⟩⟩
      · have hbroken : World.Advance plan w₁ (w₁.breakDown (.broken .tooLarge)) := .breakDown w₁ _
        exact hbroken.queryTimes.trans advance.queryTimes
      · exact .inr ⟨_, rfl, .inr ⟨rfl, advance.now ▸ w₁.endedAt_breakDown _⟩⟩

/-- A run that falls goes on falling, and no time passes until it is over. -/
theorem falls_invariant [OrderedClock τ] (instant : τ) (times : List τ) :
    World.Invariant plan (fun _ => True) fun point w =>
      GuardedAt w point ∧ point = .held ∧ w.Falls instant times where
  moves := by
    rintro w p p' w' hmove ⟨hguarded, rfl, htimes, hphase⟩
    refine ⟨World.guarded_stable hmove hguarded, ?_⟩
    have hmoved := hmove
    rcases hphase with ⟨⟨pause, hphase⟩, hnow⟩ | ⟨how, hphase, _⟩
    · cases hmove with
      | leave _ _ killed _ =>
          exact ⟨rfl, (hmoved.queryTimes_eq rfl).trans htimes,
            .inr ⟨_, rfl, .inl (hmoved.killed_eq.trans killed)⟩⟩
      | collapse phase _ _ =>
          obtain ⟨_, hdefect⟩ := Phase.tidying.inj (phase.symm.trans hphase)
          obtain rfl := Option.some.inj hdefect
          exact ⟨rfl, (hmoved.queryTimes_eq rfl).trans htimes,
            .inr ⟨_, rfl, .inr ⟨rfl, hnow ▸ w.endedAt_breakDown _⟩⟩⟩
      | choke cause =>
          cases cause with
          | leave _ _ killed _ =>
              exact ⟨rfl, (hmoved.queryTimes_eq rfl).trans htimes,
                .inr ⟨_, rfl, .inl (hmoved.killed_eq.trans killed)⟩⟩
          | _ => simp_all
      | _ => simp_all
    · exact absurd hphase (hmove.phase_ne_ended how)
  helper there _ before := ⟨World.guardedAt_stepHelper there before.1, before.2⟩
  serve _ before := before
  passTime {w _} settled _ _ before := by
    obtain ⟨hguarded, hheld, htimes, ⟨⟨pause, hphase⟩, _⟩ | hover⟩ := before
    · exact absurd hphase (World.not_tidying_of_settled hguarded settled pause _)
    · exact ⟨hguarded, hheld, htimes, .inr hover⟩
  trigger {w t} before := by
    cases t <;> exact before
  kill {w} _ before := by
    obtain ⟨hguarded, hheld, htimes, hphase⟩ := before
    refine ⟨World.guardedAt_kill hguarded, hheld, ?_⟩
    rw [World.kill]
    split
    · exact ⟨htimes, hphase⟩
    all_goals
      refine ⟨htimes, hphase.imp_right ?_⟩
      rintro ⟨how, hended, _⟩
      exact ⟨how, hended, .inl rfl⟩
  ask _ before := before
  withdraw _ before := before

/-- What becomes of a run that cannot pause. -/
structure Breaks (instant : τ) (times : List τ) (w : World τ ω) : Prop where
  still : w.queryTimes = times
  awake : w.run.phase.isAsleep = false
  /-- Once everybody is settled it is over, and that since the instant itself. -/
  ended : w.isSettled = true → w.run.killed = false →
    w.ending? = some (.broken .tooLarge) ∧ w.endedAt = some instant

omit [Wait ω] [Spans ω τ] in
theorem World.Falls.breaks {instant : τ} {times : List τ} (h : w.Falls instant times)
    (hguarded : GuardedAt w (.held : Point ω)) : Breaks instant times w := by
  obtain ⟨htimes, ⟨⟨pause, hphase⟩, _⟩ | ⟨how, hphase, hreason⟩⟩ := h
  · exact ⟨htimes, by rw [hphase]; rfl, fun hsettled _ =>
      absurd hphase (World.not_tidying_of_settled hguarded hsettled pause _)⟩
  · refine ⟨htimes, by rw [hphase]; rfl, fun _ halive => ?_⟩
    obtain ⟨rfl, hended⟩ := hreason.resolve_left (by simp [halive])
    exact ⟨World.ending?_eq_some.mpr hphase, hended⟩

/-- A run that hears of the acceptance of its event goes to sleep, if it can pause at all and its
pause takes time. -/
theorem Timely.follows {ticket : Nat} {event : Event τ} {line : Log.Note}
    (h : Timely plan start published (.held : Point ω) w)
    (hphase : w.run.phase = .sending ticket event)
    (hreply : w.traffic.replyTo? (.run ticket) = some .sent) (hgoing : event.isTerminal = false)
    (hline : World.sleepingLine plan = .ok line) :
    ∃ heard, published = heard ++ [(w.now, event)] ∧
      Follows plan (heard.map Prod.snd) event w (w.stepRun plan) := by
  obtain ⟨heard, hnoted, hdelivery, _⟩ := timelyIn_of_phase hphase h.cadence
  refine ⟨heard, hdelivery.of_sent hreply, ?_⟩
  have hstep : w.stepRun plan = w.afterSend plan event := by
    simp only [World.stepRun, hphase, hreply]
  rw [hstep]
  exact follows_afterSend hgoing hnoted.grace hline

/-! ### The timetable of a watch -/

/-- A run that is on time has begun the next query, or it is asleep and its timer is set for the end
of its last pause, or it has fallen over a pause that the clock cannot count. -/
inductive World.OnTime (w : World τ ω) : Prop
  | asked (busy : w.Busy)
  | asleep {pause : Nat} {begun span : τ} {delay : ω}
      (phase : w.run.phase = .sleeping pause (Clock.add begun span))
      (last : w.pauses.getLast? = some (begun, delay)) (positive : Wait.isPositive delay = true)
      (length : Spans.span? delay = some span)
      (waits : Clock.reached w.now (Clock.add begun span) = false)
  | broken {begun : τ} {delay : ω} (phase : w.run.phase = .ended (.broken .tooLarge))
      (last : w.pauses.getLast? = some (begun, delay)) (positive : Wait.isPositive delay = true)
      (uncounted : (Spans.span? delay : Option τ) = none)

/-- What is said about the pauses and the queries of a watch after some actions. -/
structure Regular (plan : Plan τ ω) (before : World τ ω) (actions : List (Action τ))
    (w : World τ ω) : Prop where
  /-- Each event that does not end the watch has its pause, which begins at the instant at which the
  stream accepted the event.  Only the newest pause can be to come, and then it is due at once, or
  it never comes, because the run could not log what comes before it. -/
  pauses : ∃ heard pending, before.publications plan actions = heard ++ pending ∧
    (∀ entry ∈ heard, entry.2.isTerminal = false) ∧ w.pauses = schedule plan.config heard ∧
      ((∀ entry ∈ pending, entry.2.isTerminal = true) ∨
        (w.isSettled = false ∧ ∃ event, pending = [(w.now, event)]) ∨
          ∃ instant event, pending = [(instant, event)] ∧
            SpeaksAfter plan (heard.map Prod.snd) event ∧ Undated plan instant ∧
              w.ending? = some (.broken .tooLarge) ∧ w.endedAt = some instant)
  /-- The step in which the run hears of an acceptance puts it to sleep.  If it cannot pause, it
  asks no more and is broken once everybody is settled, since that very instant, unless its task was
  cancelled in between. -/
  sleeps : ∀ earlier later w₁ ticket event, actions = earlier ++ .run :: later →
    before.actAll? plan earlier = some w₁ → w₁.run.phase = .sending ticket event →
      w₁.traffic.replyTo? (.run ticket) = some .sent → event.isTerminal = false →
        ∃ heard, before.publications plan earlier = heard ++ [(w₁.now, event)] ∧
          (¬Stranded plan w₁.now (heard.map Prod.snd) event →
            Wait.isPositive (delayAfter plan.config (heard.map Prod.snd) event) = true →
              ∃ pause span,
                Spans.span? (delayAfter plan.config (heard.map Prod.snd) event) = some span ∧
                  (w₁.stepRun plan).run.phase = .sleeping pause (Clock.add w₁.now span)) ∧
          (Stranded plan w₁.now (heard.map Prod.snd) event → Breaks w₁.now w₁.queryTimes w)
  /-- The grace period is used once at most. -/
  once : ∃ number : Nat, ∀ (other : Nat) begun delay, other ≠ number →
    w.pauses[other]? = some (begun, delay) → delay = plan.config.pollInterval
  first : ∀ instant ∈ w.queryTimes.head?, instant = before.now
  /-- Every other query begins when the pause before it is over. -/
  resumed : ∀ (number : Nat) instant, w.queryTimes[number + 1]? = some instant →
    ∃ begun delay, w.pauses[number]? = some (begun, delay) ∧ Resumes begun delay instant
  exact : ∀ [ExactClock τ] [ForwardSpans ω τ] (number : Nat) instant begun delay span,
    w.queryTimes[number + 1]? = some instant → w.pauses[number]? = some (begun, delay) →
      Wait.isPositive delay = true → Spans.span? delay = some span →
        instant = Clock.add begun span
  /-- And as long as the watch need not end, each pause is followed by its query, and so is the
  beginning of a run that can log its first line. -/
  onTime : (∀ d, ¬Speechless plan before.now d) → w.isSettled = true → w.run.killed = false →
    ¬w.MustEnd → w.OnTime

/-- The run has heard of all events that the stream accepted, but for last ones, or for one that was
accepted just now, or for one after which it broke. -/
def UpToNow (plan : Plan τ ω) (start : τ) (published : List (τ × Event τ)) (w : World τ ω) : Prop :=
  ∃ heard pending, published = heard ++ pending ∧
    Diary plan.config start heard w.pauses w.queryTimes ∧
      ((∀ entry ∈ pending, entry.2.isTerminal = true) ∨
        (w.isSettled = false ∧ ∃ event, pending = [(w.now, event)]) ∨
          ∃ d instant event, w.ending? = some (.broken d) ∧
            Hushed plan heard pending w d instant event)

theorem Diary.upToNow (h : Diary plan.config start published w.pauses w.queryTimes) :
    UpToNow plan start published w :=
  ⟨published, [], (List.append_nil _).symm, h, .inl (by simp)⟩

theorem Timely.upToNow (h : Timely plan start published (.held : Point ω) w) :
    UpToNow plan start published w := by
  cases hphase : w.run.phase with
  | created => exact (timelyIn_of_phase hphase h.cadence).1.diary.upToNow
  | querying number due => exact (timelyIn_of_phase hphase h.cadence).1.diary.upToNow
  | sleeping pause due => exact (timelyIn_of_phase hphase h.cadence).1.diary.upToNow
  | tidying pause defect =>
      have hbefore := timelyIn_of_phase hphase h.cadence
      cases defect <;> exact hbefore.1.diary.upToNow
  | sending ticket event =>
      obtain ⟨heard, hnoted, hdelivery, _⟩ := timelyIn_of_phase hphase h.cadence
      cases hdelivery with
      | waiting _ all => exact all ▸ hnoted.diary.upToNow
      | lost _ _ all => exact all ▸ hnoted.diary.upToNow
      | taken answered last =>
          have hgo : w.runCanGo = true := by simp [World.runCanGo, hphase, answered]
          have hunsettled : w.isSettled = false := by simp [World.isSettled, hgo]
          exact ⟨heard, _, last, hnoted.diary, .inr (.inl ⟨hunsettled, event, rfl⟩)⟩
  | ended how =>
      obtain ⟨heard, pending, hpublished, hpending, hdiary, _⟩ :=
        timelyIn_of_phase hphase h.cadence
      refine ⟨heard, pending, hpublished, hdiary, hpending.imp_right ?_⟩
      rintro ⟨d, instant, event, rfl, hhushed⟩
      exact .inr ⟨d, instant, event, World.ending?_eq_some.mpr hphase, hhushed⟩

/-- Once everybody is settled, a run that has no reason to end is on time. -/
theorem Timely.onTime (h : Timely plan start published (.held : Point ω) w)
    (hspoke : ∀ d, w.run.phase ≠ .ended (.mute d)) (hsettled : w.isSettled = true)
    (halive : w.run.killed = false) (hgoing : ¬w.MustEnd) :
    w.OnTime := by
  obtain ⟨hrun, _⟩ := World.resting_of_settled hsettled
  rw [World.runCanGo] at hrun
  cases hphase : w.run.phase with
  | created =>
      rw [hphase] at hrun
      cases hrun
  | querying number due => exact .asked (timelyIn_of_phase hphase h.cadence).2
  | sending ticket event =>
      obtain ⟨_, _, _, hreason⟩ := timelyIn_of_phase hphase h.cadence
      exact .asked (hreason.resolve_right fun hlast => hgoing hlast.2.2)
  | sleeping pause due =>
      obtain ⟨_, _, begun, delay, span, hlast, hpositive, hspan, rfl, _⟩ :=
        timelyIn_of_phase hphase h.cadence
      simp only [hphase, halive, Bool.false_or, Bool.or_eq_false_iff] at hrun
      exact .asleep hphase hlast hpositive hspan hrun.1
  | tidying pause defect =>
      exact absurd hphase (World.not_tidying_of_settled h.guarded hsettled pause defect)
  | ended how =>
      obtain ⟨_, _, _, _, _, hreason⟩ := timelyIn_of_phase hphase h.cadence
      rcases hreason with hbusy | ⟨_, hkilled | hmust | ⟨rfl, huncounted⟩ | ⟨d, rfl⟩⟩
      · exact .asked hbusy
      · exact absurd (hkilled.symm.trans halive) (by simp)
      · exact absurd hmust hgoing
      · obtain ⟨begun, delay, hlast, hpositive, hnone⟩ := huncounted
        exact .broken hphase hlast hpositive hnone
      · exact absurd hphase (hspoke d)

/-- Whatever else happens, a watch pauses after each event from the instant of its acceptance on,
for as long as the timetable says, and asks again when the pause is over. -/
theorem keeps_timetable [OrderedClock τ] {now : τ} {cancellation : Cancellation τ} {stopped : Bool}
    {stream : Stream (Event τ)} {actions : List (Action τ)}
    (hact : (World.start now cancellation stopped stream).actAll? plan actions = some w) :
    Regular plan (World.start now cancellation stopped stream) actions w := by
  have htimely {earlier : List (Action τ)} {w₁ : World τ ω}
      (hearlier : (World.start now cancellation stopped stream).actAll? plan earlier = some w₁) :
      Timely plan now ((World.start now cancellation stopped stream).publications plan earlier)
        (.held : Point ω) w₁ :=
    (timely_start plan now cancellation stopped stream).actAll hearlier
  obtain ⟨heard, pending, hpublished, hdiary, hnewest⟩ := (htimely hact).upToNow
  exact
    { pauses := by
        refine ⟨heard, pending, hpublished, hdiary.going, hdiary.scheduled, ?_⟩
        refine hnewest.imp_right (Or.imp_right ?_)
        rintro ⟨d, instant, event, hbroken, hhushed⟩
        obtain ⟨line, hline⟩ := exists_sleepingLine hact hbroken
        obtain ⟨hundated, rfl⟩ := hhushed.cause.resolve_left (by simp [hline])
        exact ⟨instant, event, hhushed.newest, hhushed.speaks, hundated, hbroken, hhushed.ended⟩
      sleeps := by
        rintro earlier later w₁ ticket event rfl hearlier hphase hreply hgoing
        obtain ⟨line, hline⟩ := exists_sleepingLine_of_sending hearlier hphase
        obtain ⟨before, hbefore, hfollows⟩ :=
          (htimely hearlier).follows hphase hreply hgoing hline
        refine ⟨before, hbefore, hfollows.outcome.1, fun hstranded => ?_⟩
        rw [World.actAll?_append, hearlier, Option.bind_some] at hact
        obtain ⟨w₂, hstep, hlater⟩ := World.exists_of_actAll?_cons hact
        have hguarded := ((htimely hearlier).act hstep).guarded
        obtain ⟨_⟩ := World.acts_of_act? hstep
        have hfalls := (falls_invariant w₁.now w₁.queryTimes).actAll (fun _ _ => trivial) hlater
          ⟨hguarded, rfl, hfollows.outcome.2 hstranded⟩
        exact hfalls.2.2.breaks hfalls.1
      once := by
        rw [hdiary.scheduled]
        exact schedule_interval plan.config heard
      first := hdiary.first
      resumed := hdiary.resumed
      exact := by
        intro _ _ number instant begun delay span hquery hpause hpositive hspan
        obtain ⟨begun', delay', hpause', hresumes⟩ := hdiary.resumed number instant hquery
        obtain ⟨rfl, rfl⟩ := Prod.mk.inj (Option.some.inj (hpause'.symm.trans hpause))
        exact hresumes.eq_add hpositive hspan
      onTime := fun hspeech => (htimely hact).onTime fun d hmute => by
        have hopens : w.Opens plan now :=
          (World.opens_invariant now).actAll (fun _ _ => trivial) hact
            (fun _ => World.opens_start now cancellation stopped stream) rfl
        exact hspeech d (hopens.2 d hmute) }

/-- A watch over a service that fails at first, and is up at its fourth answer. -/
def warmingUp : Plan Int Int where
  config := ⟨"demo", .plain "up", [], 7, 2⟩
  strategy := recovering.strategy
  services
    | 0 => ⟨none, [], .failure (.foreign "TimeoutError" [])⟩
    | 3 => ⟨none, [], .response (.text "up")⟩
    | _ => ⟨none, [], .response (.text "new")⟩
  hook := none
  heard := true

/-- The first observation waits behind a full buffer until the fourth second. -/
def slowReader : List (Action Int) :=
  [.run, .serve 0, .run, .helper 0, .helper 1, .passTime 2, .run, .helper 0, .helper 0, .run,
    .serve 0, .passTime 4, .ask 0 .receive, .serve 0, .serve 0, .run, .helper 0, .helper 1,
    .passTime 11, .run, .helper 0, .helper 0, .run, .serve 0, .ask 1 .receive, .serve 0, .serve 0,
    .run, .helper 0, .helper 1, .passTime 13, .run, .helper 0, .helper 0, .run]

/-- The grace period is counted from the acceptance of that observation, and it is used once. -/
theorem keeps_timetable_of_slowReader :
    ∃ w : World Int Int,
      (World.start 0 ⟨false, none⟩ false ⟨1, [], false⟩).actAll? warmingUp slowReader = some w ∧
      w.pauses = [(0, 2), (4, 7), (11, 2)] ∧ w.queryTimes = [0, 2, 11, 13] ∧
      Regular warmingUp (World.start 0 ⟨false, none⟩ false ⟨1, [], false⟩) slowReader w := by
  obtain ⟨w, hact, hpauses, hqueries⟩ : ∃ w : World Int Int,
      (World.start 0 ⟨false, none⟩ false ⟨1, [], false⟩).actAll? warmingUp slowReader = some w ∧
        w.pauses = [(0, 2), (4, 7), (11, 2)] ∧ w.queryTimes = [0, 2, 11, 13] := ⟨_, rfl, rfl, rfl⟩
  exact ⟨w, hact, hpauses, hqueries, keeps_timetable hact⟩

/-- A watch of one second over a service that fails once and then shows the same status for ever. -/
def belated : Plan Float Amount where
  config := ⟨"demo", .plain "up", [], .whole 0, .whole 1⟩
  strategy := recovering.strategy
  services
    | 0 => ⟨none, [], .failure (.foreign "TimeoutError" [])⟩
    | _ => ⟨none, [], .response (.text "starting")⟩
  hook := none
  heard := true

/-- A consumer has room for one observation and takes it when no calendar shows the instant any
more. -/
def takenLate : List (Action Float) :=
  [.run, .serve 0, .run, .helper 0, .helper 1, .passTime 1, .run, .helper 0, .helper 0, .run,
    .serve 0, .passTime 1e12, .ask 0 .receive, .serve 0, .serve 0, .run]

/-- The waits of these watches are accepted, and nobody disturbs their runs.  But the run of the
first never sleeps after the event that the stream has accepted, and asks no more; that of the
second makes no query; and that of the third does not sleep after an observation that is accepted
when nobody can log that the grace period begins. -/
theorem overlong_never_sleeps :
    (∀ plan ∈ [overlong, unspeakable, belated],
      WaitConfig.make (some (.plain "demo")) (some (.plain "up")) [] (some (.whole 0))
        (some plan.config.pollInterval) = .ok plan.config) ∧
      (∃ w : World Float Amount,
        (World.start Clock.zero ⟨false, none⟩ false ⟨1, [], false⟩).actAll? overlong
          [.run, .serve 0, .run, .helper 0, .helper 0, .run] = some w ∧
        w.run.killed = false ∧ ¬w.MustEnd ∧ w.traffic.accepted.map Event.kind = [.queryError] ∧
        w.queryTimes.length = 1 ∧ w.ending? = some (.broken .tooLarge) ∧
        ∀ number ∈ List.range 7, ∀ w₁ ∈ (World.start Clock.zero ⟨false, none⟩ false
            ⟨1, [], false⟩).actAll? overlong
              ([.run, .serve 0, .run, .helper 0, .helper 0, .run].take number),
          w₁.run.phase.isAsleep = false) ∧
      (∃ w : World Float Amount,
        (World.start Clock.zero ⟨false, none⟩ false ⟨1, [], false⟩).actAll? unspeakable [.run] =
          some w ∧
        w.run.killed = false ∧ ¬w.MustEnd ∧ w.queryTimes.length = 0 ∧
        w.ending? = some (.mute .unwritable)) ∧
      ∃ w : World Float Amount,
        (World.start Clock.zero ⟨false, none⟩ false ⟨1, [], false⟩).actAll? belated takenLate =
          some w ∧
        w.run.killed = false ∧ ¬w.MustEnd ∧
        w.traffic.accepted.map Event.kind = [.queryError, .progress] ∧
        w.pauses.length = 1 ∧ w.ending? = some (.broken .tooLarge) := by
  have hsigns : ∀ plan ∈ [overlong, unspeakable, belated],
      Wait.isNegative plan.config.pollInterval = false := by
    decide +kernel
  refine ⟨fun plan hplan => ?_, by decide +kernel, by decide +kernel, by decide +kernel⟩
  have hsign := hsigns plan hplan
  simp only [List.mem_cons, List.not_mem_nil, or_false] at hplan
  rcases hplan with rfl | rfl | rfl <;> exact make_of_not_negative hsign

end Vigil.Watch
