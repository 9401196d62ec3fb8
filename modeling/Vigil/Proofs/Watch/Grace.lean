import Vigil.Proofs.Watch.Absence
import Vigil.Proofs.Watch.Budget

/-!
# The grace period

A watch can be told to leave the resource alone for a while after it has looked for the first time.
This grace period follows the first observation, and not the first query: if that query fails, or is
answered with nothing, the next one comes after the usual interval, and the grace period is kept for
later.  So the second query can come earlier than the grace period asks for, and here it is said
exactly when it does.
-/

namespace Vigil.Watch

open SecondsClock (seconds)

variable {τ ω : Type} [Clock τ] [Wait ω] [Spans ω τ]

/-! ### Where an event comes from -/

section Sourced

variable {plan : Plan τ ω} {start : τ} {published new : List (τ × Event τ)} {w w' : World τ ω}

/-- Each event that does not end the watch is the outcome of the query with its number. -/
def World.Sourced (plan : Plan τ ω) (published : List (τ × Event τ)) (w : World τ ω) : Prop :=
  ∀ (number : Nat) (instant : τ) (event : Event τ), published[number]? = some (instant, event) →
    event.isTerminal = false →
      ∃ r ∈ w.readings, r.number = number ∧ r.outcome plan = some event

theorem World.mem_readings_stable (plan : Plan τ ω) (r : Reading τ) :
    World.Stable plan fun _ w => r ∈ w.readings := by
  intro w p p' w' hmove hr
  by_cases hanswer : ∃ number result, p' = .answered number result
  · obtain ⟨number, result, rfl⟩ := hanswer
    cases hmove
    rw [World.readings_eq_books_readings, w.books_withAnswer plan number]
    exact List.mem_append_left _ hr
  · simp only [not_exists] at hanswer
    rwa [hmove.readings_eq hanswer]

/-- What was read stays read. -/
theorem World.readings_subset {action : Action τ} (hact : w.act? plan action = some w') :
    w.readings ⊆ w'.readings := by
  intro r hr
  have hacts := World.acts_of_act? hact
  by_cases hrun : action = .run
  · subst hrun
    cases hacts with
    | run hgo => exact (World.mem_readings_stable plan r).stepRun hgo hr
  · rwa [World.readings, hacts.journal_eq hrun]

omit [Wait ω] [Spans ω τ] in
theorem World.Sourced.append (h : w.Sourced plan published) (hread : w.readings ⊆ w'.readings)
    (hnew : ∀ (number : Nat) (instant : τ) (event : Event τ),
      new[number]? = some (instant, event) → event.isTerminal = false →
        ∃ r ∈ w'.readings, r.number = published.length + number ∧ r.outcome plan = some event) :
    w'.Sourced plan (published ++ new) := by
  intro number instant event hentry hgoing
  by_cases hold : number < published.length
  · rw [List.getElem?_append_left hold] at hentry
    obtain ⟨r, hr, hsource⟩ := h number instant event hentry hgoing
    exact ⟨r, hread hr, hsource⟩
  · rw [List.getElem?_append_right (Nat.le_of_not_lt hold)] at hentry
    obtain ⟨r, hr, hnumber, houtcome⟩ := hnew _ instant event hentry hgoing
    exact ⟨r, hr, by omega, houtcome⟩

omit [Clock τ] [Spans ω τ] in
theorem schedule_length (config : WaitConfig ω) (heard : List (τ × Event τ)) :
    (schedule config heard).length = heard.length :=
  List.length_mapIdx

/-- The event that a run has on its way comes from as many queries as events came before. -/
theorem Timely.source {ticket : Nat} {event : Event τ}
    (h : Timely plan start published (.held : Point ω) w)
    (hphase : w.run.phase = .sending ticket event)
    (hnone : w.traffic.replyTo? (.run ticket) = none) (hgoing : event.isTerminal = false) :
    ∃ r ∈ w.readings, r.number = published.length ∧ r.outcome plan = some event := by
  obtain ⟨heard, hnoted, hdelivery, hbusy⟩ := timelyIn_of_phase hphase h.cadence
  obtain rfl := hdelivery.of_unanswered hnone
  have hsending : PostedIn plan w.books (.sending ticket event) :=
    postedIn_of_phase hphase h.posting
  obtain ⟨r, hr, hnumber, houtcome⟩ : IsNewest plan w.readings w.queryTimes.length event := by
    rcases hsending.2.2 with hnewest | habort
    · exact hnewest
    · rw [habort.isTerminal] at hgoing
      cases hgoing
  have hasked : w.queryTimes.length = published.length + 1 := by
    rcases hbusy with hbusy | ⟨hterminal, _⟩
    · rw [hbusy, hnoted.diary.scheduled, schedule_length]
    · rw [hterminal] at hgoing
      cases hgoing
  exact ⟨r, List.mem_of_getLast? hr, by omega, houtcome⟩

theorem Timely.sourced_act {action : Action τ}
    (h : Timely plan start published (.held : Point ω) w) (hact : w.act? plan action = some w')
    (hsourced : w.Sourced plan published) :
    w'.Sourced plan (published ++ w.publishedBy w' action) := by
  have hread := World.readings_subset hact
  refine hsourced.append hread fun number instant event hentry hgoing => ?_
  have hmem : event ∈ w.saidBy w' action := by
    obtain ⟨e, he, heq⟩ := List.mem_map.mp (List.mem_of_getElem? hentry)
    rwa [(Prod.mk.inj heq).2] at he
  have hacts := World.acts_of_act? hact
  by_cases haside : action.isAside = true
  · rw [World.saidBy_of_isAside haside] at hmem
    cases hmem
  cases hacts with
  | run hgo =>
      rw [World.saidBy] at hmem
      rcases World.stepRun_accepted plan hgo with haccepted | ⟨haccepted, _⟩
      · rw [haccepted, List.drop_length] at hmem
        cases hmem
      · -- all that a step of the run itself puts there is the last event of a cancelled task
        rw [haccepted, List.drop_left, List.mem_singleton] at hmem
        rw [hmem] at hgoing
        cases hgoing
  | @serve position _ =>
      rw [World.publishedBy] at hentry
      cases h.posting.glance position with
      | nothing _ silent => rw [silent] at hmem; cases hmem
      | denied _ _ _ silent => rw [silent] at hmem; cases hmem
      | withdrawn _ _ _ _ silent => rw [silent] at hmem; cases hmem
      | sent phase unanswered _ said =>
          rw [said] at hentry
          obtain ⟨hlength, heq⟩ := List.getElem?_eq_some_iff.mp hentry
          simp only [List.map_cons, List.map_nil, List.length_singleton, Nat.lt_one_iff] at hlength
          subst hlength
          obtain ⟨_, rfl⟩ := Prod.mk.inj heq
          exact h.source phase unanswered hgoing
  | _ => exact absurd rfl haside

theorem Timely.sourced [OrderedClock τ] {actions : List (Action τ)}
    (h : Timely plan start published (.held : Point ω) w) (hact : w.actAll? plan actions = some w')
    (hsourced : w.Sourced plan published) :
    w'.Sourced plan (published ++ w.publications plan actions) := by
  induction actions generalizing w published with
  | nil =>
      cases hact
      rwa [World.publications, List.append_nil]
  | cons action actions ih =>
      obtain ⟨middle, hmiddle, hact⟩ := World.exists_of_actAll?_cons hact
      have hrest := ih (h.act hmiddle) hact (h.sourced_act hmiddle hsourced)
      rwa [World.publications, hmiddle, ← List.append_assoc]

end Sourced

/-! ### When the second query begins -/

variable [SecondsClock τ] [SecondsWait ω τ]

/-- A query begins when its pause is over, and a pause that is not above zero takes no time. -/
theorem Resumes.seconds_eq {begun instant : τ} {delay : ω} (h : Resumes begun delay instant) :
    seconds instant = seconds begun + max 0 (SecondsWait.length τ delay) := by
  cases h with
  | atOnce nothing same =>
      rw [Bool.eq_false_iff, Ne, SecondsWait.isPositive_iff (τ := τ), not_lt] at nothing
      rw [same, max_eq_left nothing, add_zero]
  | @later span positive countable reached punctual =>
      have hpositive := (SecondsWait.isPositive_iff (τ := τ)).mp positive
      have hend : seconds (Clock.add begun span) = seconds begun + SecondsWait.length τ delay := by
        rw [SecondsClock.seconds_add, SecondsWait.seconds_span countable]
      have hreached := SecondsClock.reached_iff.mp reached
      rw [hend] at hreached
      rw [max_eq_right hpositive.le]
      rcases punctual with rfl | hkept
      · linarith
      · rw [Bool.eq_false_iff, Ne, SecondsClock.lt_iff, not_lt, hend] at hkept
        exact le_antisymm hkept hreached

theorem length_longer (τ : Type) [Clock τ] [SecondsClock τ] [Spans ω τ] [SecondsWait ω τ]
    (a b : ω) :
    SecondsWait.length τ (Wait.longer a b) =
      max (SecondsWait.length τ a) (SecondsWait.length τ b) := by
  rw [Wait.longer]
  split_ifs with hshorter
  · exact (max_eq_right ((SecondsWait.shorter_iff (τ := τ)).mp hshorter).le).symm
  · refine (max_eq_left (not_lt.mp fun hlt => hshorter ?_)).symm
    exact (SecondsWait.shorter_iff (τ := τ)).mpr hlt

/-- What is said about the second query of a watch, whose first event the stream accepted at some
instant. -/
structure SecondQuery (config : WaitConfig ω) (first second accepted : τ) (event : Event τ) :
    Prop where
  going : event.isTerminal = false
  inOrder : seconds first ≤ seconds accepted
  /-- The pause is counted from the acceptance, and how long it is depends on the event. -/
  due : seconds second = seconds accepted + max 0 (SecondsWait.length τ
    (if event.kind = .progress then config.grace else config.pollInterval))
  interval : seconds first + SecondsWait.length τ config.pollInterval ≤ seconds second
  /-- The grace period is over if the first query led to an observation, or if it is over anyway
  because the event had to wait for room. -/
  grace : seconds first + max (SecondsWait.length τ config.initialWait)
      (SecondsWait.length τ config.pollInterval) ≤ seconds second ↔
    event.kind = .progress ∨ seconds first + SecondsWait.length τ config.initialWait ≤
      seconds accepted + max 0 (SecondsWait.length τ config.pollInterval)

theorem SecondQuery.of_resumes {config : WaitConfig ω} {first second accepted : τ}
    {event : Event τ} (hgoing : event.isTerminal = false)
    (hinOrder : seconds first ≤ seconds accepted)
    (hresumes : Resumes accepted (delayAfter config [] event) second) :
    SecondQuery config first second accepted event := by
  have hdue := hresumes.seconds_eq
  simp only [delayAfter, List.not_mem_nil, false_implies, implies_true, and_true] at hdue
  have hinterval : SecondsWait.length τ config.pollInterval ≤
      max 0 (SecondsWait.length τ config.pollInterval) := le_max_right _ _
  refine ⟨hgoing, hinOrder, hdue, ?_, ?_⟩
  · have hdelay : SecondsWait.length τ config.pollInterval ≤
        SecondsWait.length τ (delayAfter config [] event) := interval_le_delayAfter τ
    have hend := hresumes.add_length_le
    linarith
  · by_cases hkind : event.kind = .progress
    · have hlonger := le_max_right 0 (SecondsWait.length τ
        (Wait.longer config.initialWait config.pollInterval))
      rw [if_pos hkind] at hdue
      rw [length_longer] at hdue hlonger
      refine iff_of_true ?_ (.inl hkind)
      linarith
    · rw [if_neg hkind] at hdue
      rw [hdue, ← max_add_add_left, max_le_iff, or_iff_right hkind, and_iff_left]
      linarith

/-- The second query of a watch follows the outcome of the first one, and comes before the grace
period is over only if that was no observation. -/
theorem second_query_of_first_event {plan : Plan τ ω} {w : World τ ω} {now first second : τ}
    {cancellation : Cancellation τ} {stopped : Bool} {stream : Stream (Event τ)}
    {actions : List (Action τ)} {more : List τ}
    (hact : (World.start now cancellation stopped stream).actAll? plan actions = some w)
    (hqueries : w.queryTimes = first :: second :: more) :
    ∃ r ∈ w.readings, ∃ accepted event, r.number = 0 ∧ r.outcome plan = some event ∧
      ((World.start now cancellation stopped stream).publications plan actions).head? =
        some (accepted, event) ∧ SecondQuery plan.config first second accepted event := by
  have hstart := timely_start plan now cancellation stopped stream
  obtain ⟨heard, pending, hpublished, hdiary, _⟩ := (hstart.actAll hact).upToNow
  have hsourced := hstart.sourced hact (by intro number instant event hentry; cases hentry)
  have hinOrder : w.InOrder := hstart.inOrder hact ⟨by simp [World.start, World.queryTimes],
    by simp [World.start, World.queryTimes]⟩
  obtain ⟨begun, delay, hpause, hresumes⟩ := hdiary.resumed 0 second (by rw [hqueries]; rfl)
  -- the first pause is that of the first event
  have hscheduled := hdiary.scheduled ▸ hpause
  rw [schedule, List.getElem?_mapIdx, Option.map_eq_some_iff] at hscheduled
  obtain ⟨⟨accepted, event⟩, hheard, heq⟩ := hscheduled
  obtain ⟨rfl, rfl⟩ := Prod.mk.inj heq
  have hgoing := hdiary.going _ (List.mem_of_getElem? hheard)
  have hhead : ([] ++ (World.start now cancellation stopped stream).publications plan actions)[0]? =
      some (accepted, event) := by
    rw [hpublished, List.getElem?_append_left (List.getElem?_eq_some_iff.mp hheard).1, hheard]
  obtain ⟨r, hr, hnumber, houtcome⟩ := hsourced 0 accepted event hhead hgoing
  have hfirst := hinOrder.paired 0 first accepted _ (by rw [hqueries]; rfl) hpause
  refine ⟨r, hr, accepted, event, hnumber, houtcome, ?_, .of_resumes hgoing hfirst hresumes⟩
  rwa [List.head?_eq_getElem?]

/-- The first query fails, and the second one begins two seconds later, although the grace period is
seven seconds; it is kept for the first observation. -/
theorem second_query_of_first_event_of_warmingUp :
    ∃ w : World Int Int,
      (World.start 0 ⟨false, none⟩ false ⟨1, [], false⟩).actAll? warmingUp slowReader = some w ∧
      w.queryTimes = [0, 2, 11, 13] ∧ warmingUp.config.initialWait = 7 ∧
      ∃ accepted event, event.kind = .queryError ∧
        SecondQuery warmingUp.config (0 : Int) 2 accepted event := by
  obtain ⟨w, hact, hqueries⟩ : ∃ w : World Int Int,
      (World.start 0 ⟨false, none⟩ false ⟨1, [], false⟩).actAll? warmingUp slowReader = some w ∧
        w.queryTimes = [0, 2, 11, 13] := ⟨_, rfl, rfl⟩
  obtain ⟨_, _, accepted, event, _, _, hhead, hsecond⟩ := second_query_of_first_event hact hqueries
  have hkind : (((World.start 0 ⟨false, none⟩ false ⟨1, [], false⟩ :
      World Int Int).publications warmingUp slowReader).head?.map fun entry => entry.2.kind) =
        some .queryError := rfl
  rw [hhead] at hkind
  exact ⟨w, hact, hqueries, rfl, accepted, event, Option.some.inj hkind, hsecond⟩

end Vigil.Watch
