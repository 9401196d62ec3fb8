import Vigil.Proofs.Watch.LastEvent

/-!
# When a resource is gone

A failure that says that the resource is gone ends a watch: as good news if that was the goal, and
as a failure if it was not.  The run puts the one or the other on its stream and does nothing else,
as long as it can log what it does, and no other answer makes it say either.
-/

namespace Vigil.Watch

open Vigil.Stream (Denial)

variable {τ ω : Type}

/-- The query failed, and its failure says that the resource is gone. -/
def SaysGone (strategy : Strategy) : Result → Prop
  | .failure f => strategy.isAbsent f = .ok true
  | _ => False

/-- Every failure that says that the resource is gone can be written. -/
def Spelled (strategy : Strategy) : Prop :=
  ∀ f, strategy.isAbsent f = .ok true → ∃ text, f.text = .ok text

/-- The query was answered with the desired status. -/
def ShowsGoal (plan : Plan τ ω) : Result → Prop
  | .payload v => ∃ status, plan.strategy.statusOf v = .ok status ∧
      status.asText? = some plan.config.desired.text
  | _ => False

/-- The last reading has a property. -/
def LastReading (holds : Result → Prop) (readings : List (Reading τ)) : Prop :=
  ∃ earlier r, readings = earlier ++ [r] ∧ holds r.result

/-- What a watch tells when the resource is gone: it is the goal or it is not. -/
def goneEvent (plan : Plan τ ω) (f : Failure) : Event τ :=
  if plan.strategy.absentStatus = some plan.config.desired.text then .absent
  else .notFound (.notFound plan.config.resource (some f))

variable {plan : Plan τ ω}

theorem goneEvent_isTerminal (f : Failure) : (goneEvent plan f : Event τ).isTerminal = true := by
  rw [goneEvent]
  split_ifs <;> rfl

theorem lastReading_append {holds : Result → Prop} {readings : List (Reading τ)} {r : Reading τ} :
    LastReading holds (readings ++ [r]) ↔ holds r.result := by
  constructor
  · rintro ⟨earlier, r', hsplit, hholds⟩
    obtain ⟨_, rfl⟩ := List.append_singleton_inj.mp hsplit
    exact hholds
  · intro hholds
    exact ⟨readings, r, rfl, hholds⟩

/-! ### What follows from a reading -/

section Outcome

variable [Clock τ] {r : Reading τ} {event : Event τ}

theorem SaysGone.outcome_eq (h : SaysGone plan.strategy r.result) :
    ∃ f, r.result = .failure f ∧ r.outcome plan = some (goneEvent plan f) := by
  obtain ⟨instant, number, result⟩ := r
  cases result with
  | failure f =>
      have habsent : plan.strategy.isAbsent f = .ok true := h
      refine ⟨f, rfl, ?_⟩
      rw [Reading.outcome, outcome, goneEvent, habsent]
      split_ifs <;> rfl
  | payload v => exact h.elim
  | cancelled => exact h.elim

theorem SaysGone.not_unreadable {instant : τ} {d : Defect} {result : Result}
    (hspelled : Spelled plan.strategy) (h : SaysGone plan.strategy result) :
    ¬Unreadable plan.strategy instant d result := by
  intro hunreadable
  cases result with
  | failure f =>
      have hok : plan.strategy.isAbsent f = .ok true := h
      obtain ⟨text, htext⟩ := hspelled f hok
      rcases hunreadable with herror | herror
      · rw [hok] at herror
        cases herror
      · rw [htext] at herror
        cases herror
  | payload v => exact h
  | cancelled => exact h

/-- Only a failure that says so makes a watch tell that the resource is gone, as good or as bad
news. -/
theorem saysGone_of_outcome (hevent : r.outcome plan = some event)
    (hkind : event.kind = .absent ∨ event.kind = .notFound) :
    SaysGone plan.strategy r.result := by
  obtain ⟨instant, number, result⟩ := r
  cases result with
  | failure f =>
      simp only [Reading.outcome, outcome] at hevent
      split at hevent
      · assumption
      · cases hevent
        simp [Event.kind] at hkind
      · cases hevent
  | payload v =>
      simp only [Reading.outcome, outcome] at hevent
      split_ifs at hevent
      · split at hevent
        · split_ifs at hevent <;> (cases hevent; simp [Event.kind] at hkind)
        · cases hevent
      · cases hevent
        simp [Event.kind] at hkind
  | cancelled => cases hevent

theorem absentStatus_of_outcome (hevent : r.outcome plan = some .absent) :
    plan.strategy.absentStatus = some plan.config.desired.text := by
  obtain ⟨f, _, hgone⟩ := (saysGone_of_outcome hevent (.inl rfl)).outcome_eq
  rw [hevent, goneEvent] at hgone
  split_ifs at hgone with hgoal
  · exact hgoal
  · cases hgone

theorem absentStatus_ne_of_outcome {f : Failure} (hevent : r.outcome plan = some (.notFound f)) :
    plan.strategy.absentStatus ≠ some plan.config.desired.text := by
  obtain ⟨f', _, hgone⟩ := (saysGone_of_outcome hevent (.inr rfl)).outcome_eq
  rw [hevent, goneEvent] at hgone
  split_ifs at hgone with hgoal
  · cases hgone
  · exact hgoal

theorem showsGoal_of_outcome {snapshot : Snapshot τ}
    (hevent : r.outcome plan = some (.desired snapshot)) : ShowsGoal plan r.result := by
  obtain ⟨instant, number, result⟩ := r
  cases result with
  | failure f =>
      simp only [Reading.outcome, outcome] at hevent
      split at hevent
      · split_ifs at hevent <;> cases hevent
      · cases hevent
      · cases hevent
  | payload v =>
      simp only [Reading.outcome, outcome] at hevent
      split_ifs at hevent
      · split at hevent
        · rename_i status _ hstatus _
          split_ifs at hevent with hgoal
          · exact ⟨status, hstatus, hgoal⟩
          · cases hevent
          · cases hevent
        · cases hevent
      · cases hevent
  | cancelled => cases hevent

end Outcome

/-! ### Terminal events -/

section Standing

variable [Clock τ] {readings : List (Reading τ)} {asked : Nat} {events : List (Event τ)}
variable {event : Event τ}

/-- An event that ends a watch says that it was aborted, or it is the outcome of the last
reading. -/
theorem Standing.of_terminal {lags : Bool} (h : Standing plan lags readings asked events)
    (hevent : event ∈ events) (hterminal : event.isTerminal = true) :
    IsAbort plan event ∨
      ∃ earlier r, readings = earlier ++ [r] ∧ r.outcome plan = some event := by
  have hnot {going : List (Event τ)} (hgoing : ∀ e ∈ going, e.isTerminal = false) :
      event ∉ going := by
    intro hin
    rw [hgoing event hin] at hterminal
    cases hterminal
  cases h with
  | upToDate behind _ => exact absurd hevent (hnot behind.going)
  | lagging _ covers => exact absurd hevent (hnot covers.going)
  | @came prior _ next _ =>
      rcases List.mem_append.mp hevent with hin | hin
      · exact absurd hin (hnot next.going)
      · obtain rfl := List.mem_singleton.mp hin
        cases next with
        | observed split _ outcome => exact .inr ⟨_, _, split, outcome⟩
        | aborted _ abort => exact .inl abort
  | cutOff _ covers =>
      rcases List.mem_append.mp hevent with hin | hin
      · exact absurd hin (hnot covers.going)
      · rw [List.mem_singleton.mp hin]
        exact .inl (.cancelled false)

/-- A reading that ended a watch is the last one. -/
theorem Standing.length_eq_of_terminal {lags : Bool}
    (h : Standing plan lags readings asked events) {number : Nat} {r : Reading τ}
    (hreading : readings[number]? = some r) (houtcome : r.outcome plan = some event)
    (hterminal : event.isTerminal = true) : readings.length = number + 1 := by
  have hbound := (List.getElem?_eq_some_iff.mp hreading).1
  have hupToDate {shown : List (Event τ)} (hm : Matches plan shown readings) :
      readings.length = number + 1 := by
    have hle := hm.le_of_terminal [] (by simpa using hreading) houtcome hterminal
    omega
  have hlate {earlier : List (Reading τ)} {newest : Reading τ} {shown : List (Event τ)}
      (hsplit : readings = earlier ++ [newest]) (hm : Matches plan shown earlier) :
      readings.length = number + 1 := by
    subst hsplit
    exact hm.length_eq_of_terminal hreading houtcome hterminal
  have hcovered {shown : List (Event τ)} (hcovers : Covers plan readings asked shown) :
      readings.length = number + 1 := by
    cases hcovers with
    | all behind _ => exact hupToDate behind
    | allButNewest split behind _ => exact hlate split behind
  cases h with
  | upToDate behind _ => exact hupToDate behind
  | lagging _ covers => exact hcovered covers
  | cutOff _ covers => exact hcovered covers
  | came next _ =>
      cases next with
      | observed split behind _ => exact hlate split behind
      | aborted behind _ => exact hupToDate behind

/-- Good news is about the last reading: it shows the goal, or the resource is gone and was to
go. -/
theorem Standing.of_good {lags : Bool} (h : Standing plan lags readings asked events)
    (hevent : event ∈ events) (hterminal : event.isTerminal = true) (hok : event.isOk = true) :
    LastReading (ShowsGoal plan) readings ∨
      plan.strategy.absentStatus = some plan.config.desired.text ∧
        LastReading (SaysGone plan.strategy) readings := by
  rcases h.of_terminal hevent hterminal with habort | ⟨earlier, r, rfl, houtcome⟩
  · cases habort <;> cases hok
  · simp only [lastReading_append]
    cases event with
    | desired snapshot => exact .inl (showsGoal_of_outcome houtcome)
    | absent =>
        exact .inr ⟨absentStatus_of_outcome houtcome, saysGone_of_outcome houtcome (.inl rfl)⟩
    | progress snapshot => cases hterminal
    | queryError f => cases hok
    | emptyResponse f => cases hok
    | failed snapshot f => cases hok
    | notFound f => cases hok
    | cancelled f => cases hok
    | stopped f => cases hok

theorem Standing.of_absent {lags : Bool} (h : Standing plan lags readings asked events)
    (hevent : .absent ∈ events) :
    plan.strategy.absentStatus = some plan.config.desired.text ∧
      LastReading (SaysGone plan.strategy) readings := by
  rcases h.of_terminal hevent rfl with habort | ⟨earlier, r, rfl, houtcome⟩
  · cases habort
  · rw [lastReading_append]
    exact ⟨absentStatus_of_outcome houtcome, saysGone_of_outcome houtcome (.inl rfl)⟩

theorem Standing.of_notFound {lags : Bool} {f : Failure}
    (h : Standing plan lags readings asked events) (hevent : .notFound f ∈ events) :
    plan.strategy.absentStatus ≠ some plan.config.desired.text ∧
      LastReading (SaysGone plan.strategy) readings := by
  rcases h.of_terminal hevent rfl with habort | ⟨earlier, r, rfl, houtcome⟩
  · cases habort
  · rw [lastReading_append]
    exact ⟨absentStatus_ne_of_outcome houtcome, saysGone_of_outcome houtcome (.inr rfl)⟩

end Standing

/-! ### The run after the last answer -/

/-- Where a run is whose last reading says that the resource is gone: it tells so, or it is over. It
breaks only if no record can be made of what it has to log. -/
def Parting [Clock τ] (plan : Plan τ ω) (r : Reading τ) (endedAt : Option τ) : Phase τ → Prop
  | .sending _ event => r.outcome plan = some event
  | .ended how => ∀ d, how = .broken d → ∃ instant, endedAt = some instant ∧ Undated plan instant
  | _ => False

/-- From the reading on that says that the resource is gone, a run only takes its leave. -/
def Departing [Clock τ] (plan : Plan τ ω) (point : Point ω) (w : World τ ω) : Prop :=
  ∀ earlier r, w.readings = earlier ++ [r] → SaysGone plan.strategy r.result →
    match point with
    | .held => Parting plan r w.endedAt w.run.phase
    | .answered number result => r = ⟨w.now, number, result⟩
    | _ => False

namespace World

theorem readings_eq_books_readings (w : World τ ω) : w.readings = w.books.readings := rfl

theorem readings_send (w : World τ ω) (event : Event τ) :
    (w.send event).books.readings = w.books.readings := rfl

variable [Clock τ]

/-- Whoever still has something to do after its send has not told that the resource is gone. -/
theorem not_parting_of_going {r : Reading τ} {endedAt : Option τ} {ticket : Nat}
    {event : Event τ} (hgone : SaysGone plan.strategy r.result)
    (hgoing : event.isTerminal = false) : ¬Parting plan r endedAt (.sending ticket event) := by
  intro (houtcome : r.outcome plan = some event)
  obtain ⟨f, _, hevent⟩ := hgone.outcome_eq
  rw [houtcome, Option.some.injEq] at hevent
  rw [hevent, goneEvent_isTerminal] at hgoing
  cases hgoing

/-- What happens around the run adds no reading and does not move the run. -/
theorem departing_of_books {w w' : World τ ω} (h : Departing plan (.held : Point ω) w)
    (hreadings : w'.books.readings = w.books.readings)
    (hended : w'.books.endedAt = w.books.endedAt)
    (hphase : w'.books.run.phase = w.books.run.phase) :
    Departing plan (.held : Point ω) w' := by
  intro earlier r hsplit hgone
  have hsame : w'.run.phase = w.run.phase := hphase
  have hsameEnd : w'.endedAt = w.endedAt := hended
  rw [hsame, hsameEnd]
  exact h earlier r (hreadings.symm.trans hsplit) hgone

variable [Wait ω] [Spans ω τ]

/-- A new reading comes with an answer and in no other way. -/
theorem Move.readings_eq {w w' : World τ ω} {p p' : Point ω} (h : Move plan w p p' w')
    (hanswer : ∀ number result, p' ≠ .answered number result) : w'.readings = w.readings := by
  simp only [readings_eq_books_readings]
  cases h with
  | answer => exact absurd rfl (hanswer _ _)
  | skip _ _ => rw [books_finish, books_shutWith]
  | start _ _ _ _ => rw [books_withStart]
  | mute _ _ _ => rw [books_finish, books_withBegin]
  | choke cause => rw [breakDown, books_finish, books_shut, cause.books]
  | abort _ _ => rw [readings_send, books_note]
  | ask _ => rw [books_withQuery]
  | wait _ => rfl
  | atOnce _ => rfl
  | inTime _ _ _ => rfl
  | interrupt _ _ _ =>
      rw [withFarewell, books_finish, books_shutWith, books_note, books_closeClient]
  | revoke _ => rw [withFarewell, books_finish, books_shutWith, books_note]
  | fail _ _ => rw [breakDown, books_finish, books_shut, books_noteAll]
  | publish _ _ => rw [readings_send, books_noteAll]
  | finish _ _ _ => rw [books_finish, books_shut]
  | grace _ _ _ _ _ => rw [books_withGrace, books_withHook]
  | progress _ _ _ _ => rw [books_withHook]
  | retry _ _ _ _ => rfl
  | refuse _ _ => rw [breakDown, books_finish, books_shut]
  | retract _ _ _ _ _ => rw [withFarewell, books_finish, books_shutWith, books_note]
  | sleep _ _ => rw [books_goTo, books_withPause]
  | overrun _ _ => rw [books_goTo, books_dismissHelpers, books_withPause]
  | hurry _ => rw [books_record_paused]
  | wake _ _ => rfl
  | leave _ _ _ _ => rw [withFarewell, books_finish, books_shutWith, books_note]
  | collapse _ _ _ => rw [breakDown, books_finish, books_shut]
  | rise _ _ _ => rfl

omit [Spans ω τ] in
/-- What cannot be logged once the resource is gone has no date. -/
theorem Choke.parting {w w' : World τ ω} {p : Point ω} {d : Defect} {r : Reading τ}
    (cause : Choke plan w p w' d) (hgone : SaysGone plan.strategy r.result)
    (hbefore : p = .held → Parting plan r w.endedAt w.run.phase) : Undated plan w.now := by
  cases cause with
  | abort _ undated => exact undated_of_not_canRecord undated
  | outcome _ _ undated => exact undated_of_not_canRecord undated
  | complaint _ _ _ undated => exact undated_of_not_canRecord undated
  | grace phase _ _ _ _ =>
      rw [phase] at hbefore
      exact absurd (hbefore rfl) (not_parting_of_going hgone rfl)
  | interrupt _ _ undated => exact undated_of_not_canRecord undated
  | revoke undated => exact undated_of_not_canRecord undated
  | retract _ _ _ _ undated => exact undated_of_not_canRecord undated
  | leave _ _ _ undated => exact undated_of_not_canRecord undated

theorem departing_stable (hspelled : Spelled plan.strategy) : Stable plan (Departing plan) := by
  intro w p p' w' hmove h earlier r hreadings hgone
  by_cases hanswer : ∃ number result, p' = .answered number result
  · obtain ⟨number, result, rfl⟩ := hanswer
    cases hmove
    have hbooks := w.books_withAnswer plan number
    have hnow : (w.withAnswer plan number).now = w.now := congrArg Books.now hbooks
    rw [readings_eq_books_readings, hbooks] at hreadings
    simp only [hnow]
    exact (List.append_singleton_inj.mp hreadings).2.symm
  · simp only [not_exists] at hanswer
    rw [hmove.readings_eq hanswer] at hreadings
    have hbefore := h earlier r hreadings hgone
    cases hmove with
    | answer => exact absurd rfl (hanswer _ _)
    -- between an answer and the next query nothing is left to do for this run
    | start phase _ _ _ => rw [phase] at hbefore; exact hbefore.elim
    | mute phase _ _ => rw [phase] at hbefore; exact hbefore.elim
    | abort _ _ => exact hbefore.elim
    | ask _ => exact hbefore.elim
    | wait _ => exact hbefore.elim
    | atOnce _ => exact hbefore.elim
    | inTime phase _ _ => rw [phase] at hbefore; exact hbefore.elim
    | sleep _ _ => exact hbefore.elim
    | overrun _ _ => exact hbefore.elim
    | hurry _ => exact hbefore.elim
    | wake phase _ => rw [phase] at hbefore; exact hbefore.elim
    | collapse phase _ _ => rw [phase] at hbefore; exact hbefore.elim
    | rise phase _ _ => rw [phase] at hbefore; exact hbefore.elim
    | grace phase _ _ _ _ =>
        rw [phase] at hbefore
        exact absurd hbefore (not_parting_of_going hgone rfl)
    | progress phase _ _ _ =>
        rw [phase] at hbefore
        exact absurd hbefore (not_parting_of_going hgone rfl)
    | retry phase _ terminal _ =>
        rw [phase] at hbefore
        exact absurd hbefore (not_parting_of_going hgone terminal)
    -- the answer itself is published, since it can be read
    | @publish number result notes event outcome dated =>
        subst hbefore
        exact outcome_of_observation number outcome
    | @fail number result notes d outcome dated =>
        subst hbefore
        exact absurd (unreadable_of_observation outcome) (hgone.not_unreadable hspelled)
    -- unless there is something that cannot be logged
    | @choke _ w'' d cause =>
        intro d' _
        have hnow : w''.now = w.now := congrArg Books.now cause.books
        refine ⟨w.now, hnow ▸ w''.endedAt_breakDown (.broken d), cause.parting hgone ?_⟩
        rintro rfl
        exact hbefore
    -- and the run may be over
    | skip _ _ => nofun
    | interrupt _ _ _ => nofun
    | revoke _ => nofun
    | finish _ _ _ => nofun
    | refuse _ _ => nofun
    | retract _ _ _ _ _ => nofun
    | leave _ _ _ _ => nofun

theorem departing_invariant (hspelled : Spelled plan.strategy) (allowed : Action τ → Prop) :
    Invariant plan allowed (Departing plan) where
  moves := departing_stable hspelled
  helper _ _ before := departing_of_books before rfl rfl rfl
  serve _ before := departing_of_books before rfl rfl rfl
  passTime _ _ _ before := departing_of_books before rfl rfl rfl
  trigger before := by
    apply departing_of_books before
    · rw [books_trigger]
    · rw [books_trigger]
    · rw [books_trigger]
  kill {w} _ before := by
    rw [World.kill]
    split
    · exact before
    · exact departing_of_books before rfl rfl rfl
    · exact departing_of_books before rfl rfl rfl
  ask _ before := departing_of_books before rfl rfl rfl
  withdraw _ before := departing_of_books before rfl rfl rfl

end World

/-! ### What a watch tells -/

variable [Clock τ] [Wait ω] [Spans ω τ]

/-- What holds at every moment of a watch whose consumers put nothing on its stream. -/
structure Faithful (plan : Plan τ ω) (w : World τ ω) : Prop where
  sound : Sound plan False (.held : Point ω) w.books
  departing : Departing plan (.held : Point ω) w

theorem faithful_of_actAll? {stream : Stream (Event τ)} (hopen : stream.closed = false) {now : τ}
    {cancellation : Cancellation τ} {stopped : Bool} {actions : List (Action τ)} {w : World τ ω}
    (hspelled : Spelled plan.strategy) (hconsumers : ∀ action ∈ actions, action.OffersNothing)
    (hact : (World.start now cancellation stopped stream).actAll? plan actions = some w) :
    Faithful plan w where
  sound := sound_of_actAll? hopen (fun action ha => ⟨hconsumers action ha, False.elim⟩) hact
  departing := by
    apply (World.departing_invariant hspelled fun _ => True).actAll (fun _ _ => trivial) hact
    intro earlier r hsplit
    cases earlier <;> cases hsplit

namespace Faithful

variable {w : World τ ω} {how : Ending}

theorem standing (h : Faithful plan w) :
    Standing plan w.run.phase.lags w.readings w.queryTimes.length w.traffic.accepted :=
  Held.standing h.sound.stage

/-- Nothing follows the reading that says that the resource is gone: it is the last one, and the
query it came from is the last one, too. -/
theorem last_of_saysGone (h : Faithful plan w) {number : Nat} {r : Reading τ}
    (hreading : w.readings[number]? = some r) (hgone : SaysGone plan.strategy r.result) :
    w.queryTimes.length = number + 1 ∧ ∃ earlier, w.readings = earlier ++ [r] := by
  obtain ⟨f, _, houtcome⟩ := hgone.outcome_eq
  have hterminal : (goneEvent plan f : Event τ).isTerminal = true := goneEvent_isTerminal f
  have hlast := h.standing.length_eq_of_terminal hreading houtcome hterminal
  obtain ⟨_, _, _, haccount⟩ := h.standing.account
  refine ⟨haccount.concluded number r _ hreading houtcome hterminal, ?_⟩
  rw [← List.getLast?_eq_some_iff, List.getLast?_eq_getElem?, hlast]
  exact hreading

/-- Until such a run is over, it offers the event that tells so. -/
theorem sending_of_saysGone (h : Faithful plan w) {earlier : List (Reading τ)} {r : Reading τ}
    {f : Failure} (hsplit : w.readings = earlier ++ [r]) (hresult : r.result = .failure f)
    (hgone : SaysGone plan.strategy r.result) (hgoing : w.ending? = none) :
    ∃ ticket, w.run.phase = .sending ticket (goneEvent plan f) := by
  have hparting : Parting plan r w.endedAt w.run.phase := h.departing earlier r hsplit hgone
  obtain ⟨f', hresult', houtcome⟩ := hgone.outcome_eq
  rw [hresult, Result.failure.injEq] at hresult'
  subst hresult'
  cases hphase : w.run.phase with
  | sending ticket event =>
      rw [hphase] at hparting
      obtain rfl := Option.some.inj (hparting.symm.trans houtcome)
      exact ⟨ticket, rfl⟩
  | ended how =>
      rw [World.ending?_eq_some.mpr hphase] at hgoing
      cases hgoing
  | created => rw [hphase] at hparting; exact hparting.elim
  | querying number due => rw [hphase] at hparting; exact hparting.elim
  | sleeping pause due => rw [hphase] at hparting; exact hparting.elim
  | tidying pause defect => rw [hphase] at hparting; exact hparting.elim

/-- A run that was not cut off has told at its end that the resource is gone. -/
theorem getLast?_of_saysGone (h : Faithful plan w) {earlier : List (Reading τ)} {r : Reading τ}
    {f : Failure} (hsplit : w.readings = earlier ++ [r]) (hresult : r.result = .failure f)
    (hgone : SaysGone plan.strategy r.result) (hhow : w.ending? = some how)
    (hcancelled : how ≠ .cancelled) (hdenied : ∀ d, how ≠ .denied d)
    (hdated : ∀ instant, w.endedAt = some instant → ¬Undated plan instant) :
    w.traffic.accepted.getLast? = some (goneEvent plan f) := by
  have hparting : Parting plan r w.endedAt w.run.phase := h.departing earlier r hsplit hgone
  rw [World.ending?_eq_some.mp hhow] at hparting
  have hunbroken (d : Defect) : how ≠ .broken d := fun hd => by
    obtain ⟨instant, hinstant, hundated⟩ := hparting d hd
    exact hdated instant hinstant hundated
  obtain ⟨f', hresult', houtcome⟩ := hgone.outcome_eq
  rw [hresult, Result.failure.injEq] at hresult'
  subst hresult'
  obtain ⟨_, _, hover⟩ := h.sound.over hhow
  cases hover with
  | cancelled _ _ => exact absurd rfl hcancelled
  | broken _ _ _ => exact absurd rfl (hunbroken _)
  | unwritten _ _ _ => exact absurd rfl (hunbroken _)
  | mute _ _ nothing =>
      rw [nothing.1] at hsplit
      cases earlier <;> cases hsplit
  | denied _ _ _ => exact absurd rfl (hdenied _)
  | finished _ accepted _ next _ =>
      rw [accepted, List.getLast?_concat]
      cases next with
      | observed split _ outcome =>
          obtain ⟨_, rfl⟩ := List.append_singleton_inj.mp (hsplit.symm.trans split)
          exact outcome.symm.trans houtcome
      | aborted behind _ =>
          -- an abort would have followed a reading that did not end the watch
          have hreading : (w.readings ++ [])[earlier.length]? = some r := by simp [hsplit]
          have hle := behind.le_of_terminal [] hreading houtcome (goneEvent_isTerminal f)
          simp only [hsplit, List.length_append, List.length_singleton] at hle
          omega

/-- At the end of a run that was not cut off, the stream carries the good news exactly if absence
was the goal and the last query found the resource gone. -/
theorem absent_mem_iff (h : Faithful plan w) (hhow : w.ending? = some how)
    (hcancelled : how ≠ .cancelled) (hdenied : ∀ d, how ≠ .denied d)
    (hdated : ∀ instant, w.endedAt = some instant → ¬Undated plan instant) :
    .absent ∈ w.traffic.accepted ↔
      plan.strategy.absentStatus = some plan.config.desired.text ∧
        LastReading (SaysGone plan.strategy) w.readings := by
  constructor
  · exact h.standing.of_absent
  · rintro ⟨hgoal, earlier, r, hsplit, hgone⟩
    obtain ⟨f, hresult, _⟩ := hgone.outcome_eq
    have hlast := h.getLast?_of_saysGone hsplit hresult hgone hhow hcancelled hdenied hdated
    rw [goneEvent, if_pos hgoal] at hlast
    exact List.mem_of_getLast? hlast

/-- It carries the bad news exactly if the last query found the resource gone and that was not the
goal. -/
theorem notFound_mem_iff (h : Faithful plan w) (hhow : w.ending? = some how)
    (hcancelled : how ≠ .cancelled) (hdenied : ∀ d, how ≠ .denied d)
    (hdated : ∀ instant, w.endedAt = some instant → ¬Undated plan instant) :
    (∃ f, .notFound f ∈ w.traffic.accepted) ↔
      plan.strategy.absentStatus ≠ some plan.config.desired.text ∧
        LastReading (SaysGone plan.strategy) w.readings := by
  constructor
  · rintro ⟨f, hevent⟩
    exact h.standing.of_notFound hevent
  · rintro ⟨hgoal, earlier, r, hsplit, hgone⟩
    obtain ⟨f, hresult, _⟩ := hgone.outcome_eq
    have hlast := h.getLast?_of_saysGone hsplit hresult hgone hhow hcancelled hdenied hdated
    rw [goneEvent, if_neg hgoal] at hlast
    exact ⟨_, List.mem_of_getLast? hlast⟩

/-- A run whose event was turned down leaves nothing on its stream that ends a watch. -/
theorem going_of_denied (h : Faithful plan w) {d : Denial} (hhow : w.ending? = some (.denied d)) :
    ∀ event ∈ w.traffic.accepted, event.isTerminal = false := by
  obtain ⟨_, _, hover⟩ := h.sound.over hhow
  cases hover with
  | denied _ _ covers => exact covers.going

end Faithful

end Vigil.Watch
