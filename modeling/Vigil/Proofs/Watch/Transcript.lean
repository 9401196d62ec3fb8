import Vigil.Proofs.Watch.LastEvent

/-!
# The transcript of a watch

What a watch makes of an answer depends on the answer alone, but for the instant that it notes.  So
the answers of a service fix in advance what the consumers of a watch are told: the outcomes in
order, up to the first that ends the watch.  Neither the pace of the watch nor that of its consumers
enters.
-/

namespace Vigil

variable {τ : Type}

/-- A clock that stands still.  Instants on it tell nothing. -/
instance : Clock Unit where
  zero := ()
  add _ _ := ()
  sub _ _ := ()
  lt _ _ := false
  le _ _ := true
  isFinite _ := true
  stamp? := some
  tenths _ := "0.0"

/-- A snapshot without its instant. -/
def Snapshot.untimed (s : Snapshot τ) : Snapshot Unit := ⟨s.resource, s.status, s.payload, ()⟩

namespace Event

/-- An event without its instant: its kind, the status and the payload it shows, and its failure. -/
def untimed : Event τ → Event Unit
  | progress s => progress s.untimed
  | desired s => desired s.untimed
  | absent => absent
  | failed s f => failed s.untimed f
  | notFound f => notFound f
  | queryError f => queryError f
  | emptyResponse f => emptyResponse f
  | cancelled f => cancelled f
  | stopped f => stopped f

@[simp]
theorem kind_untimed (e : Event τ) : e.untimed.kind = e.kind := by
  cases e <;> rfl

@[simp]
theorem isTerminal_untimed (e : Event τ) : e.untimed.isTerminal = e.isTerminal := by
  rw [isTerminal, kind_untimed, isTerminal]

end Event

end Vigil

namespace Vigil.Watch

variable {τ ω : Type}

/-- The result of a query by its number, when it comes. -/
def Plan.result (plan : Plan τ ω) (number : Nat) : Result :=
  plan.strategy.read (plan.services number).answer

/-- The event that follows from the result of a query, whenever it comes. -/
def Plan.verdict (plan : Plan τ ω) (number : Nat) : Option (Event Unit) :=
  outcome plan.config plan.strategy () (plan.result number)

/-- What a watch tells of its first results. -/
def Plan.transcript (plan : Plan τ ω) (count : Nat) : List (Event Unit) :=
  (List.range count).filterMap plan.verdict

/-! ### Results that can be read -/

/-- Everything that a watch reads of a result can be read, and what it shows of it can be
written. -/
def Readable (strategy : Strategy) : Result → Prop
  | .failure f => (∃ gone, strategy.isAbsent f = .ok gone) ∧ ∃ text, f.text = .ok text
  | .payload payload => payload.truthy = true →
      ∃ status shown fields, strategy.statusOf payload = .ok status ∧ status.canBeMember = true ∧
        status.shown = .ok shown ∧ strategy.logFields payload = .ok fields
  | .cancelled => False

section Outcome

variable [Clock τ] {config : WaitConfig ω} {strategy : Strategy} {instant : τ} {result : Result}

/-- A result that can be read leads to an event whenever it comes on the calendar. -/
theorem Readable.stamp?_eq_none (h : Readable strategy result) {d : Defect}
    (hreason : Unreadable strategy instant d result) : Clock.stamp? instant = none := by
  cases result with
  | cancelled => exact hreason.elim
  | failure f =>
      obtain ⟨⟨gone, habsent⟩, text, htext⟩ := h
      rcases hreason with herror | herror
      · rw [habsent] at herror
        cases herror
      · rw [htext] at herror
        cases herror
  | payload payload =>
      obtain ⟨htruthy, hcases⟩ := hreason
      obtain ⟨status, shown, fields, hstatus, hmember, hshown, hfields⟩ := h htruthy
      rcases hcases with herror | herror | ⟨status', hstatus', hother⟩ | ⟨hstamp, _⟩
      · rw [hstatus] at herror
        cases herror
      · rw [hfields] at herror
        cases herror
      · rw [hstatus, Except.ok.injEq] at hstatus'
        subst hstatus'
        rcases hother with herror | ⟨hlisted, _⟩
        · rw [hshown] at herror
          cases herror
        · rw [hmember] at hlisted
          cases hlisted
      · exact hstamp

/-- The instant does not matter to what follows from a result. -/
theorem outcome_untimed {event : Event τ}
    (hevent : outcome config strategy instant result = some event) :
    outcome config strategy () result = some event.untimed := by
  cases result with
  | cancelled => cases hevent
  | failure f =>
      simp only [outcome] at hevent ⊢
      split at hevent
      · split_ifs at hevent ⊢ <;> (rw [← Option.some.inj hevent]; rfl)
      · rw [← Option.some.inj hevent]
        rfl
      · cases hevent
  | payload payload =>
      simp only [outcome] at hevent ⊢
      split_ifs at hevent ⊢ with htruthy
      · split at hevent
        · rename_i status fetchedAt hstatus hstamp
          simp only [hstatus, Clock.stamp?]
          split_ifs at hevent ⊢ <;> (rw [← Option.some.inj hevent]; rfl)
        · cases hevent
      · rw [← Option.some.inj hevent]
        rfl

theorem Readable.exists_outcome (h : Readable strategy result) :
    ∃ event, outcome config strategy () result = some event := by
  cases result with
  | cancelled => exact h.elim
  | failure f =>
      obtain ⟨⟨gone, habsent⟩, _⟩ := h
      simp only [outcome, habsent]
      cases gone with
      | true => split_ifs <;> exact ⟨_, rfl⟩
      | false => exact ⟨_, rfl⟩
  | payload payload =>
      simp only [outcome]
      split_ifs with htruthy
      · obtain ⟨status, _, _, hstatus, _⟩ := h htruthy
        simp only [hstatus, Clock.stamp?]
        split_ifs <;> exact ⟨_, rfl⟩
      · exact ⟨_, rfl⟩

end Outcome

/-! ### What the answers fix -/

/-- The results of a watch can be read up to the first that ends it. -/
structure Conclusive (plan : Plan τ ω) (last : Nat) : Prop where
  readable : ∀ number ≤ last, Readable plan.strategy (plan.result number)
  going : ∀ number < last, ∀ event, plan.verdict number = some event → event.isTerminal = false
  final : ∀ event, plan.verdict last = some event → event.isTerminal = true

/-- Two watches look for the same in the same answers.  Their pace may differ, and the time that the
service takes. -/
structure SameWatch (plan plan' : Plan τ ω) : Prop where
  strategy : plan.strategy = plan'.strategy
  resource : plan.config.resource = plan'.config.resource
  desired : plan.config.desired = plan'.config.desired
  failures : plan.config.failures = plan'.config.failures
  answers : ∀ number, (plan.services number).answer = (plan'.services number).answer

namespace SameWatch

variable {plan plan' : Plan τ ω}

theorem result_eq (h : SameWatch plan plan') (number : Nat) :
    plan.result number = plan'.result number := by
  rw [Plan.result, Plan.result, h.strategy, h.answers]

theorem verdict_eq (h : SameWatch plan plan') (number : Nat) :
    plan.verdict number = plan'.verdict number := by
  rw [Plan.verdict, Plan.verdict, h.result_eq, h.strategy]
  cases plan'.result number <;>
    simp only [outcome, h.resource, h.desired, h.failures]

theorem transcript_eq (h : SameWatch plan plan') (count : Nat) :
    plan.transcript count = plan'.transcript count := by
  rw [Plan.transcript, Plan.transcript, funext h.verdict_eq]

theorem conclusive (h : SameWatch plan plan') {last : Nat} (hplan : Conclusive plan last) :
    Conclusive plan' last where
  readable number hnumber := by
    rw [← h.strategy, ← h.result_eq]
    exact hplan.readable number hnumber
  going number hnumber := by
    rw [← h.verdict_eq]
    exact hplan.going number hnumber
  final := by
    rw [← h.verdict_eq]
    exact hplan.final

end SameWatch

/-! ### What a watch tells is what its answers fix -/

section Account

variable [Clock τ] {plan : Plan τ ω} {last : Nat} {readings : List (Reading τ)}
variable {events : List (Event τ)} {lags : Bool} {asked : Nat}

/-- Each event of an account follows from the reading with its number. -/
theorem Account.exists_reading (h : Account plan lags readings asked events []) {number : Nat}
    {event : Event τ} (hevent : events[number]? = some event) :
    ∃ r, readings[number]? = some r ∧ r.outcome plan = some event := by
  have hmapped : (events.map some)[number]? = some (some event) := by
    rw [List.getElem?_map, hevent, Option.map_some]
  rw [h.outcomes, List.getElem?_map, Option.map_eq_some_iff] at hmapped
  obtain ⟨r, hreading, houtcome⟩ := hmapped
  rw [List.getElem?_take] at hreading
  split_ifs at hreading with hlt
  exact ⟨r, hreading, houtcome⟩

theorem Account.verdict_eq (h : Account plan lags readings asked events [])
    (hnumbered : ∀ number r, readings[number]? = some r → r.result = plan.result number)
    {number : Nat} {event : Event τ} (hevent : events[number]? = some event) :
    plan.verdict number = some event.untimed := by
  obtain ⟨r, hreading, houtcome⟩ := h.exists_reading hevent
  rw [Plan.verdict, ← hnumbered number r hreading]
  exact outcome_untimed houtcome

/-- The events of an account are the beginning of the transcript. -/
theorem Account.untimed_eq (h : Account plan lags readings asked events [])
    (hnumbered : ∀ number r, readings[number]? = some r → r.result = plan.result number) :
    events.map Event.untimed = plan.transcript events.length := by
  have hverdicts : (List.range events.length).map plan.verdict =
      (events.map Event.untimed).map some := by
    apply List.ext_getElem?
    intro number
    rw [List.getElem?_map, List.getElem?_map, List.getElem?_map]
    rcases Nat.lt_or_ge number events.length with hlt | hge
    · have hevent : events[number]? = some events[number] := List.getElem?_eq_getElem hlt
      rw [List.getElem?_range hlt, hevent, Option.map_some, Option.map_some, Option.map_some,
        h.verdict_eq hnumbered hevent]
    · rw [List.getElem?_eq_none (by simpa using hge), List.getElem?_eq_none hge]
      rfl
  have hall := congrArg (List.filterMap id) hverdicts
  rw [List.filterMap_map, List.filterMap_map] at hall
  simpa [Plan.transcript] using hall.symm

/-- A watch tells nothing beyond the first outcome that ends it. -/
theorem Account.length_le (h : Account plan lags readings asked events [])
    (hnumbered : ∀ number r, readings[number]? = some r → r.result = plan.result number)
    (hplan : Conclusive plan last) (hrounded : Rounded events) : events.length ≤ last + 1 := by
  obtain ⟨going, final, hsplit, hgoing, _⟩ := hrounded
  by_contra hlong
  have hfinal : final.toList.length ≤ 1 := by cases final <;> simp
  have hlength : events.length = going.length + final.toList.length := by
    rw [hsplit, List.length_append]
  have hlt : last < going.length := by omega
  have hevent : events[last]? = some going[last] := by
    rw [hsplit, List.getElem?_append_left hlt, List.getElem?_eq_getElem hlt]
  have hterminal := hplan.final _ (h.verdict_eq hnumbered hevent)
  rw [Event.isTerminal_untimed, hgoing _ (List.getElem_mem hlt)] at hterminal
  cases hterminal

/-- A watch that told an outcome that ends it told the whole transcript. -/
theorem Account.length_eq_of_terminal (h : Account plan lags readings asked events [])
    (hnumbered : ∀ number r, readings[number]? = some r → r.result = plan.result number)
    (hplan : Conclusive plan last) (hrounded : Rounded events)
    {event : Event τ} (hlast : events.getLast? = some event) (hterminal : event.isTerminal = true) :
    events.length = last + 1 := by
  have hshort := h.length_le hnumbered hplan hrounded
  rw [List.getLast?_eq_getElem?] at hlast
  have hverdict := h.verdict_eq hnumbered hlast
  have hpositive : 0 < events.length := by
    rw [List.length_pos_iff]
    rintro rfl
    cases hlast
  by_contra hne
  have hgoing := hplan.going _ (by omega) _ hverdict
  rw [Event.isTerminal_untimed, hterminal] at hgoing
  cases hgoing

/-- No query follows the one whose result ends the watch. -/
theorem Account.asked_le (h : Account plan lags readings asked events [])
    (hnumbered : ∀ number r, readings[number]? = some r → r.result = plan.result number)
    (hplan : Conclusive plan last) (hrounded : Rounded events) : asked ≤ last + 1 := by
  have hshort := h.length_le hnumbered hplan hrounded
  have hturn := h.inTurn
  by_cases hwhole : last < events.length
  · have hevent : events[last]? = some events[last] := List.getElem?_eq_getElem hwhole
    obtain ⟨r, hreading, houtcome⟩ := h.exists_reading hevent
    have hterminal := hplan.final _ (h.verdict_eq hnumbered hevent)
    rw [Event.isTerminal_untimed] at hterminal
    exact Nat.le_of_eq (h.concluded last r _ hreading houtcome hterminal)
  · omega

end Account

/-- The beginning of a transcript. -/
theorem Plan.transcript_prefix (plan : Plan τ ω) {count count' : Nat} (h : count ≤ count') :
    plan.transcript count <+: plan.transcript count' := by
  obtain ⟨rest, rfl⟩ := Nat.exists_eq_add_of_le h
  rw [Plan.transcript, Plan.transcript, List.range_add, List.filterMap_append]
  exact List.prefix_append _ _

/-- The transcript of a conclusive watch ends with the first outcome that ends the watch. -/
theorem Conclusive.transcript_eq {plan : Plan τ ω} {last : Nat} (h : Conclusive plan last) :
    ∃ final, plan.verdict last = some final ∧ final.isTerminal = true ∧
      plan.transcript (last + 1) = plan.transcript last ++ [final] ∧
      ∀ event ∈ plan.transcript last, event.isTerminal = false := by
  obtain ⟨final, hfinal⟩ :=
    (h.readable last (Nat.le_refl _)).exists_outcome
  have hverdict : plan.verdict last = some final := hfinal
  refine ⟨final, hverdict, h.final final hverdict, ?_, ?_⟩
  · simp [Plan.transcript, List.range_succ, hverdict]
  · intro event hevent
    obtain ⟨number, hnumber, hevent⟩ := List.mem_filterMap.mp hevent
    exact h.going number (List.mem_range.mp hnumber) event hevent

end Vigil.Watch
