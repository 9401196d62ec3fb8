import Vigil.Proofs.Clock.Seconds
import Vigil.Proofs.Watch.Punctual

/-!
# How many queries fit before a deadline

Two queries of a watch are apart by the pause between them, and no pause is shorter than the
interval of the watch.  A query that takes long, or an event that waits for room, only moves the
pause back.  So the queries are spread over time, and since none of them begins once the deadline
was reached, no more of them can begin than intervals begin before it.
-/

namespace Vigil.Watch

open SecondsClock (seconds)

variable {τ ω : Type} [Clock τ] [SecondsClock τ] [Wait ω] [Spans ω τ] [SecondsWait ω τ]

/-! ### What the timetable says about spans -/

section Timetable

variable {config : WaitConfig ω}

/-- No event is followed by a pause that is shorter than the interval. -/
theorem interval_le_delayAfter (τ : Type) [Clock τ] [SecondsClock τ] [Spans ω τ]
    [SecondsWait ω τ] {earlier : List (Event τ)} {event : Event τ} :
    SecondsWait.length τ config.pollInterval ≤
      SecondsWait.length τ (delayAfter config earlier event) := by
  rw [delayAfter]
  split_ifs
  · exact SecondsWait.length_le_longer τ _ _
  · exact le_rfl

theorem interval_le_of_scheduled {heard : List (τ × Event τ)} {number : Nat} {begun : τ}
    {delay : ω} (hpause : (schedule config heard)[number]? = some (begun, delay)) :
    SecondsWait.length τ config.pollInterval ≤ SecondsWait.length τ delay := by
  rw [schedule, List.getElem?_mapIdx, Option.map_eq_some_iff] at hpause
  obtain ⟨entry, _, heq⟩ := hpause
  obtain ⟨_, rfl⟩ := Prod.mk.inj heq
  exact interval_le_delayAfter τ

/-- A query does not begin before the pause is over. -/
theorem Resumes.add_length_le {begun instant : τ} {delay : ω} (h : Resumes begun delay instant) :
    seconds begun + SecondsWait.length τ delay ≤ seconds instant := by
  cases h with
  | atOnce nothing same =>
      have hnothing : SecondsWait.length τ delay ≤ 0 := by
        rw [Bool.eq_false_iff, Ne, SecondsWait.isPositive_iff (τ := τ), not_lt] at nothing
        exact nothing
      rw [same]
      exact add_le_of_nonpos_right hnothing
  | @later span _ countable reached _ =>
      calc seconds begun + SecondsWait.length τ delay
          = seconds begun + seconds span := by rw [SecondsWait.seconds_span countable]
        _ = seconds (Clock.add begun span) := (SecondsClock.seconds_add _ _).symm
        _ ≤ seconds instant := SecondsClock.reached_iff.mp reached

end Timetable

/-! ### The order of queries and pauses -/

variable {plan : Plan τ ω} {start : τ} {published : List (τ × Event τ)} {w w' : World τ ω}

/-- Queries begin before now, and each before the pause that follows it. -/
structure World.InOrder (w : World τ ω) : Prop where
  past : ∀ instant ∈ w.queryTimes, seconds instant ≤ seconds w.now
  paired : ∀ (number : Nat) (asked begun : τ) (delay : ω), w.queryTimes[number]? = some asked →
    w.pauses[number]? = some (begun, delay) → seconds asked ≤ seconds begun

namespace World.InOrder

omit [Wait ω] [Spans ω τ] [SecondsWait ω τ] in
/-- Time may pass, but no query and no pause begins. -/
theorem of_eq (h : w.InOrder) (hnow : seconds w.now ≤ seconds w'.now)
    (hqueries : w'.queryTimes = w.queryTimes) (hpauses : w'.pauses = w.pauses) : w'.InOrder where
  past instant hinstant := (h.past instant (hqueries ▸ hinstant)).trans hnow
  paired := by
    rw [hqueries, hpauses]
    exact h.paired

omit [Wait ω] [Spans ω τ] [SecondsWait ω τ] in
/-- All queries came before a pause that begins now. -/
theorem pause (h : w.InOrder) {delay : ω} (hnow : w'.now = w.now)
    (hqueries : w'.queryTimes = w.queryTimes) (hpauses : w'.pauses = w.pauses ++ [(w.now, delay)]) :
    w'.InOrder where
  past := by
    rw [hqueries, hnow]
    exact h.past
  paired number asked begun delay' hquery hpause := by
    rw [hqueries] at hquery
    rw [hpauses] at hpause
    by_cases hold : number < w.pauses.length
    · rw [List.getElem?_append_left hold] at hpause
      exact h.paired number asked begun delay' hquery hpause
    · rw [List.getElem?_append_right (Nat.le_of_not_lt hold)] at hpause
      obtain ⟨rfl, _⟩ := Prod.mk.inj (List.mem_singleton.mp (List.mem_of_getElem? hpause))
      exact h.past asked (List.mem_of_getElem? hquery)

omit [Wait ω] [Spans ω τ] [SecondsWait ω τ] in
/-- No pause follows a query that begins now. -/
theorem query (h : w.InOrder) (hrested : w.Rested) (hnow : w'.now = w.now)
    (hqueries : w'.queryTimes = w.queryTimes ++ [w.now]) (hpauses : w'.pauses = w.pauses) :
    w'.InOrder where
  past instant hinstant := by
    rw [hqueries, List.mem_append, List.mem_singleton] at hinstant
    rw [hnow]
    rcases hinstant with hold | rfl
    · exact h.past instant hold
    · exact le_rfl
  paired number asked begun delay hquery hpause := by
    rw [hpauses] at hpause
    have hlength : number < w.pauses.length := (List.getElem?_eq_some_iff.mp hpause).1
    have hold : number < w.queryTimes.length := hlength.trans_eq hrested.symm
    rw [hqueries, List.getElem?_append_left hold] at hquery
    exact h.paired number asked begun delay hquery hpause

end World.InOrder

omit [SecondsWait ω τ] in
theorem World.Move.inOrder {p p' : Point ω} (hmove : World.Move plan w p p' w')
    (htimely : TimelyAt plan start published w p) (h : w.InOrder) : w'.InOrder := by
  have hnow := hmove.now_eq
  cases hp : p.isPausing with
  | true =>
      cases p with
      | pausing delay =>
          have hpauses : w'.pauses = w.pauses ++ [(w.now, delay)] := by
            cases hmove with
            | sleep _ _ => exact w.pauses_record_paused delay
            | overrun _ _ => exact w.pauses_record_paused delay
            | hurry _ => exact w.pauses_record_paused delay
            | choke cause => cases cause
          refine h.pause hnow (hmove.queryTimes_eq ?_) hpauses
          cases hmove <;> rfl
      | _ => cases hp
  | false =>
      have hpauses := hmove.pauses_eq hp
      cases hp' : p'.isAsked with
      | false => exact h.of_eq (by rw [hnow]) (hmove.queryTimes_eq hp') hpauses
      | true =>
          cases hmove with
          | ask _ => exact h.query htimely.2.1 hnow (w.queryTimes_withQuery plan) hpauses
          | _ => cases hp'

omit [SecondsWait ω τ] in
/-- Whatever happens, queries and pauses keep their order. -/
theorem Timely.inOrder {actions : List (Action τ)}
    (h : Timely plan start published (.held : Point ω) w)
    (hact : w.actAll? plan actions = some w') (hinOrder : w.InOrder) : w'.InOrder := by
  have hstable (published : List (τ × Event τ)) :
      World.Stable plan fun p w => Timely plan start published p w ∧ w.InOrder :=
    fun _ _ _ _ hmove h =>
      ⟨timely_stable plan start published hmove h.1, hmove.inOrder h.1.cadence h.2⟩
  induction actions generalizing w published with
  | nil =>
      cases hact
      exact hinOrder
  | cons action actions ih =>
      obtain ⟨middle, hmiddle, hact⟩ := World.exists_of_actAll?_cons hact
      refine ih (h.act hmiddle) hact ?_
      have hacts := World.acts_of_act? hmiddle
      have hsteady (haside : action.isAside = true) (hclock : ∀ goal, action ≠ .passTime goal) :
          middle.InOrder := by
        have hstill := hacts.still haside hclock
        exact hinOrder.of_eq (by rw [hstill.now]) hstill.queries hstill.pauses
      cases hacts with
      | run hgo => exact ((hstable published).stepRun hgo ⟨h, hinOrder⟩).2
      | serve _ => exact hinOrder.of_eq le_rfl rfl rfl
      | passTime _ hlater _ => exact hinOrder.of_eq (SecondsClock.lt_iff.mp hlater).le rfl rfl
      | _ => exact hsteady rfl (by simp)

/-! ### The bound -/

/-- Each query comes later than the first one, by an interval for each query before it. -/
theorem Diary.spaced {heard : List (τ × Event τ)}
    (h : Diary plan.config start heard w.pauses w.queryTimes) (hinOrder : w.InOrder) (number : Nat)
    {instant : τ} (hquery : w.queryTimes[number]? = some instant) :
    seconds start + number * SecondsWait.length τ plan.config.pollInterval ≤ seconds instant := by
  induction number generalizing instant with
  | zero =>
      have hfirst : instant = start := h.first instant (by rw [List.head?_eq_getElem?, hquery]; rfl)
      rw [hfirst, Nat.cast_zero, zero_mul, add_zero]
  | succ number ih =>
      obtain ⟨begun, delay, hpause, hresumes⟩ := h.resumed number instant hquery
      have hlength := (List.getElem?_eq_some_iff.mp hquery).1
      have hbefore := List.getElem?_eq_getElem (Nat.lt_of_succ_lt hlength)
      have hdelay : SecondsWait.length τ plan.config.pollInterval ≤ SecondsWait.length τ delay :=
        interval_le_of_scheduled (h.scheduled ▸ hpause)
      calc seconds start + (number + 1 : ℕ) * SecondsWait.length τ plan.config.pollInterval
          = seconds start + number * SecondsWait.length τ plan.config.pollInterval +
              SecondsWait.length τ plan.config.pollInterval := by push_cast; ring
        _ ≤ seconds begun + SecondsWait.length τ delay :=
            add_le_add ((ih hbefore).trans (hinOrder.paired number _ begun delay hbefore hpause))
              hdelay
        _ ≤ seconds instant := hresumes.add_length_le

/-- As many steps of some length as end before a span is over are no more than fill the span. -/
theorem le_ceil_of_forall_lt {span step : ℚ} (hstep : 0 < step) {count : Nat}
    (hbefore : ∀ number : Nat, number < count → number * step < span) :
    count ≤ ⌈span / step⌉₊ := by
  cases count with
  | zero => exact Nat.zero_le _
  | succ number =>
      have hlast : number * step < span := hbefore number (Nat.lt_succ_self number)
      exact Nat.lt_ceil.mpr ((lt_div_iff₀ hstep).mpr hlast)

omit [Wait ω] [Spans ω τ] [SecondsWait ω τ] in
theorem World.Heedful.lt_deadline (h : World.Heedful plan w) {due instant : τ}
    (hdue : w.cancellation.deadline = some due) (hquery : instant ∈ w.queryTimes) :
    seconds instant < seconds due := by
  rw [World.queryTimes, List.mem_filterMap] at hquery
  obtain ⟨⟨instant', deed⟩, hentry, hdeed⟩ := hquery
  cases deed with
  | query number =>
      obtain rfl := Option.some.inj hdeed
      obtain ⟨earlier, later, hsplit⟩ := List.append_of_mem hentry
      exact SecondsClock.not_reached_iff.mp ((h.queries earlier _ number later hsplit).1 due hdue)
  | _ => cases hdeed

/-- However long its queries take and its events wait for room, a watch with a deadline begins its
queries before the deadline, and no more of them than the intervals that it takes to fill the
timeout. -/
theorem queries_within_timeout {made now timeout : τ} {stopped : Bool} {stream : Stream (Event τ)}
    {actions : List (Action τ)} (hmade : Clock.le made now = true)
    (hinterval : Wait.isPositive plan.config.pollInterval = true)
    (hact : (World.start now (.after made (some timeout)) stopped stream).actAll? plan actions =
      some w) :
    w.queryTimes.length ≤
        ⌈seconds timeout / SecondsWait.length τ plan.config.pollInterval⌉₊ ∧
      (seconds timeout = 0 → w.queryTimes = []) ∧
      ∀ instant ∈ w.queryTimes, Clock.lt instant (Clock.add made timeout) = true := by
  have hfree : ∀ action ∈ actions, True := fun _ _ => trivial
  have htimely := timely_start plan now (.after made (some timeout)) stopped stream
  obtain ⟨heard, _, _, hdiary, _⟩ := (htimely.actAll hact).upToNow
  have hinOrder : w.InOrder := htimely.inOrder hact ⟨by simp [World.start, World.queryTimes],
    by simp [World.start, World.queryTimes]⟩
  have hheedful : World.Heedful plan w :=
    World.heedful_invariant.actAll hfree hact ⟨by simp [World.start], by simp [World.start]⟩
  have hdeadline : w.cancellation.deadline = some (Clock.add made timeout) :=
    (World.deadline_invariant _).actAll hfree hact rfl
  have hearly (instant : τ) (hquery : instant ∈ w.queryTimes) :
      seconds instant < seconds made + seconds timeout := by
    rw [← SecondsClock.seconds_add]
    exact hheedful.lt_deadline hdeadline hquery
  have hbound : w.queryTimes.length ≤
      ⌈seconds timeout / SecondsWait.length τ plan.config.pollInterval⌉₊ := by
    refine le_ceil_of_forall_lt (SecondsWait.isPositive_iff.mp hinterval) fun number hnumber => ?_
    have hspaced := hdiary.spaced hinOrder number (List.getElem?_eq_getElem hnumber)
    have hlast := hearly _ (List.getElem_mem hnumber)
    have hstarted : seconds made ≤ seconds now := SecondsClock.le_iff.mp hmade
    linarith
  refine ⟨hbound, fun hnothing => ?_, fun instant hquery => ?_⟩
  · rw [hnothing, zero_div, Nat.ceil_zero] at hbound
    exact List.eq_nil_of_length_eq_zero (Nat.le_zero.mp hbound)
  · rw [SecondsClock.lt_iff, SecondsClock.seconds_add]
    exact hearly instant hquery

/-- A service that never answers in time. -/
def unreachable : Plan Int Int where
  config := ⟨"demo", .plain "up", [], 0, 2⟩
  strategy := recovering.strategy
  services _ := ⟨none, [], .failure (.foreign "TimeoutError" [])⟩
  hook := none
  heard := true

/-- Two intervals pass, and then the deadline. -/
def untilDeadline : List (Action Int) :=
  [.run, .serve 0, .run, .helper 0, .helper 1, .passTime 2, .run, .helper 0, .helper 0, .run,
    .serve 0, .run, .helper 0, .helper 1, .passTime 4, .run, .helper 0, .helper 0, .run,
    .serve 0, .run, .helper 0, .helper 1, .passTime 5, .helper 0, .run, .helper 0, .run]

/-- Three queries begin in five seconds, as many as can. -/
theorem queries_within_timeout_of_unreachable :
    ∃ w : World Int Int,
      (World.start 0 (.after 0 (some 5)) false ⟨9, [], false⟩).actAll? unreachable untilDeadline =
        some w ∧
      w.queryTimes = [0, 2, 4] ∧ ⌈(5 : ℚ) / 2⌉₊ = 3 ∧ w.queryTimes.length ≤ ⌈(5 : ℚ) / 2⌉₊ ∧
      ∀ instant ∈ w.queryTimes, Clock.lt instant 5 = true := by
  obtain ⟨w, hact, hqueries⟩ : ∃ w : World Int Int,
      (World.start 0 (.after 0 (some 5)) false ⟨9, [], false⟩).actAll? unreachable untilDeadline =
        some w ∧ w.queryTimes = [0, 2, 4] := ⟨_, rfl, rfl⟩
  obtain ⟨hbound, _, hearly⟩ := queries_within_timeout rfl rfl hact
  exact ⟨w, hact, hqueries, by norm_num [Nat.ceil_eq_iff], hbound, hearly⟩

end Vigil.Watch
