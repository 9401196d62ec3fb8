import Vigil.Proofs.Watch.Liveness

/-!
# Watches agree whatever their pace

Two watches look for the same in the same answers.  One may pause longer than the other, wait longer
for its answers, or have a stream with less room and a consumer that takes its time.  Their
consumers are told the same, and they query as often.  And neither gets stuck on the way, since
every request of a consumer is answered sooner or later.
-/

namespace Vigil.Watch

open Vigil.Number (Amount pow10)
open Vigil.Stream (Ask)
open Vigil.Stream.Traffic (Asked Candid Conserved Iterated Watchful)

variable {τ ω : Type}

/-- Consumers ask for one event after the other, and not for all at once. -/
def Action.Iterates : Action τ → Prop
  | .ask _ request => request.iterates = true
  | _ => True

variable [Clock τ] [Wait ω] [Spans ω τ] {plan plan' : Plan τ ω} {last : Nat} {w : World τ ω}
variable {actions : List (Action τ)}

/-! ### What the stream of a watch keeps -/

theorem candid_invariant :
    World.Invariant plan (fun _ => True) fun _ w => Candid w.traffic :=
  stream_invariant Candid fun _ s h => h.step s

theorem asked_invariant (consumer : Nat) :
    World.Invariant plan (fun _ => True) fun _ w => Asked w.traffic (.consumer consumer) :=
  stream_invariant (fun t => Asked t (.consumer consumer)) fun _ s h => h.step s

theorem iterated_invariant :
    World.Invariant plan Action.Iterates fun _ w => Iterated w.traffic := by
  refine traffic_invariant (fun s => ∀ id ask, s = .start id ask → ask.iterates = true) Iterated
    ?_ ?_ ?_ fun _ s hs h => h.step s hs
  · rintro s hs id ask rfl
    cases id with
    | consumer number => exact hs.elim
    | run ticket =>
        cases ask with
        | send event => rfl
        | _ => exact hs.elim
  · intro consumer request hiterates id ask heq
    cases heq
    exact hiterates
  · intro consumer _ id ask heq
    cases heq

/-- A consumer that came with a request has asked. -/
theorem asked_of_mem {before : World τ ω} {consumer : Nat} {request : Ask (Event τ)}
    (hact : before.actAll? plan actions = some w) (hmem : Action.ask consumer request ∈ actions) :
    Asked w.traffic (.consumer consumer) := by
  obtain ⟨earlier, later, rfl⟩ := List.append_of_mem hmem
  rw [World.actAll?_append] at hact
  obtain ⟨middle, _, hlater⟩ := Option.bind_eq_some_iff.mp hact
  simp only [World.actAll?, World.act?] at hlater
  refine (asked_invariant consumer).actAll (fun _ _ => trivial) hlater ?_
  exact .inl ⟨⟨.consumer consumer, request, false⟩, by simp, rfl⟩

/-! ### One watch -/

/-- The calendar shows the instants of all results, the run does not break where no record can be
made, and the clock can count the pauses between the queries. -/
structure World.InTime (plan : Plan τ ω) (w : World τ ω) : Prop where
  shown : ∀ r ∈ w.readings, Clock.stamp? r.instant ≠ none
  dated : ∀ instant d, w.endedAt = some instant → w.ending? = some (.broken d) →
    ¬Undated plan instant
  counted : ∀ delay ∈ [plan.config.grace, plan.config.pollInterval],
    Wait.isPositive delay = true → (Spans.span? delay : Option τ) ≠ none

/-- What is certain of a watch that nobody disturbs, whatever its pace, if its results can be read
up to one that ends it. -/
structure Steadfast (plan : Plan τ ω) (now : τ) (last : Nat) (actions : List (Action τ))
    (w : World τ ω) : Prop where
  /-- The consumers take the transcript off the stream, from its beginning. -/
  beginning : w.traffic.taken.map Event.untimed <+: plan.transcript (last + 1)
  /-- Consumers that ask for one event after the other receive what is taken. -/
  received : (∀ action ∈ actions, action.Iterates) → w.traffic.received = w.traffic.taken
  few : w.queryTimes.length ≤ last + 1
  /-- A consumer that is told the end has been told everything. -/
  whole : w.traffic.Told → w.InTime plan →
    w.traffic.taken.map Event.untimed = plan.transcript (last + 1) ∧
      w.queryTimes.length = last + 1 ∧ w.ending? = some .finished
  /-- Nobody who asked waits for ever, however the watch goes on, if the run can log its first line
  when it begins. -/
  answered : (∀ d, ¬Speechless plan now d) →
    ∀ consumer request, Action.ask consumer request ∈ actions →
      w.Inevitably plan fun w' => (w'.replyTo? consumer).isSome = true ∨ ¬w'.InReach

/-- The events of a watch that nobody disturbs are what it observed. -/
theorem Calm.account (h : Calm plan (.held : Point ω) w) :
    Account plan w.run.phase.lags w.readings w.queryTimes.length w.traffic.accepted [] := by
  obtain ⟨observed, aborts, happend, haccount⟩ := (Held.standing h.sound.stage).account
  have hnone : aborts = [] := by
    refine List.eq_nil_iff_forall_not_mem.mpr fun event hevent => ?_
    have haccepted : event ∈ w.traffic.accepted := by
      rw [show w.traffic.accepted = observed ++ aborts from happend]
      exact List.mem_append_right _ hevent
    exact h.serene.loyal event haccepted (haccount.abort event hevent)
  subst hnone
  rw [List.append_nil] at happend
  rw [show w.traffic.accepted = observed from happend]
  exact haccount

/-- Only an instant beyond the calendar or a pause that cannot be counted breaks such a watch. -/
theorem Calm.not_broken {line : Log.Note} (h : Calm plan (.held : Point ω) w)
    (hplan : Conclusive plan last) (htime : w.InTime plan)
    (hline : World.sleepingLine plan = .ok line) (d : Defect) : w.ending? ≠ some (.broken d) := by
  intro hbroken
  obtain ⟨instant, hinstant, hover⟩ := h.sound.over hbroken
  cases hover.cause hline with
  | undated reason _ => exact htime.dated instant d hinstant hbroken reason
  | overlong reason =>
      obtain ⟨_, delay, hdelay, hpositive, hlength⟩ := reason
      exact htime.counted delay hdelay hpositive hlength
  | @unreadable earlier r split reason =>
      have hnumbered := h.sound.kept.result_eq
      have hnewest : w.readings[earlier.length]? = some r := by
        rw [split]
        exact List.getElem?_concat_length
      have hfew : w.readings.length ≤ last + 1 := by
        cases hover with
        | broken _ covers _ => exact covers.length_le hplan hnumbered
        | unwritten _ covers _ => exact covers.length_le hplan hnumbered
      rw [split, List.length_append, List.length_singleton] at hfew
      have hreadable := hplan.readable earlier.length (Nat.le_of_succ_le_succ hfew)
      rw [← hnumbered earlier.length r hnewest] at hreadable
      exact htime.shown r (List.mem_of_getElem? hnewest) (hreadable.stamp?_eq_none reason)

/-- A watch that nobody disturbs and whose stream was closed in time has told everything. -/
theorem Calm.whole_of_closed (h : Calm plan (.held : Point ω) w) (hplan : Conclusive plan last)
    (htime : w.InTime plan) (hclosed : w.traffic.stream.closed = true)
    (hspoke : ∀ d, w.ending? = some (.broken d) → ∃ line, World.sleepingLine plan = .ok line) :
    w.traffic.accepted.length = last + 1 ∧ w.queryTimes.length = last + 1 ∧
      w.ending? = some .finished := by
  rw [h.sound.closed_eq] at hclosed
  obtain ⟨how, hhow⟩ := exists_ending?_of_hasShut hclosed
  obtain ⟨_, _, hover⟩ := h.sound.over hhow
  cases how with
  | broken d =>
      obtain ⟨line, hline⟩ := hspoke d hhow
      exact absurd hhow (h.not_broken hplan htime hline d)
  | mute d =>
      rw [World.hasShut, hhow] at hclosed
      cases hclosed
  | denied d => exact absurd rfl hover.ne_denied
  | cancelled =>
      have hlast := List.mem_of_getLast? hover.getLast?_of_cancelled
      exact absurd (.cancelled false) (h.serene.loyal _ hlast)
  | finished =>
      have haccount := h.account
      cases hover with
      | @finished prior event _ accepted terminal _ few =>
          have hlast : w.traffic.accepted.getLast? = some event := by
            rw [accepted, List.getLast?_concat]
          have hlength := haccount.length_eq_of_terminal h.sound.kept.result_eq hplan
            (Held.standing h.sound.stage).rounded hlast terminal
          have hlags : w.run.phase.lags = false := by
            rw [World.ending?_eq_some.mp hhow]
            rfl
          refine ⟨hlength, ?_, hhow⟩
          rw [few, ← haccount.upToDate hlags, hlength]

/-- A watch that nobody disturbs tells its transcript, and goes on as long as somebody waits. -/
theorem steadfast {capacity : Int} {stream : Stream (Event τ)} {now : τ} [OrderedClock τ]
    (hquiet : plan.Unsignalled) (hplan : Conclusive plan last)
    (hstream : Stream.create capacity = .ok stream) (hcalm : ∀ action ∈ actions, action.IsCalm)
    (hact : (World.start now ⟨false, none⟩ false stream).actAll? plan actions = some w) :
    Steadfast plan now last actions w := by
  obtain ⟨rfl, hcapacity⟩ := Stream.create_eq_ok hstream
  have hfree : ∀ action ∈ actions, True := fun _ _ => trivial
  have hcalmNow : Calm plan (.held : Point ω) w :=
    (calm_start rfl now).actAll hquiet hplan hcalm hact
  have hconserved : Conserved capacity.toNat w.traffic :=
    (stream_invariant (Conserved capacity.toNat) fun _ s h => h.step s).actAll hfree hact
      ⟨rfl, rfl, by constructor <;> simp [World.start, Stream.Traffic.onto]⟩
  have hwatchful : Watchful w.traffic :=
    (stream_invariant Watchful fun _ s h => h.step s).actAll hfree hact
      fun _ hparty => absurd hparty List.not_mem_nil
  have hcandid : Candid w.traffic := by
    refine candid_invariant.actAll hfree hact ?_
    rintro ⟨entry, hentry, _⟩
    exact absurd hentry List.not_mem_nil
  have hnumbered := hcalmNow.sound.kept.result_eq
  have hrounded := (Held.standing hcalmNow.sound.stage).rounded
  have haccepted := hcalmNow.account.untimed_eq hnumbered
  constructor
  · have hshort := hcalmNow.account.length_le hnumbered hplan hrounded
    refine List.IsPrefix.trans ?_ (plan.transcript_prefix hshort)
    rw [← haccepted, ← hconserved.entries, List.map_append]
    exact List.prefix_append _ _
  · intro hiterates
    refine (iterated_invariant.actAll hiterates hact ?_).received
    exact ⟨fun _ hparty => absurd hparty List.not_mem_nil, rfl⟩
  · exact hcalmNow.account.asked_le hnumbered hplan hrounded
  · intro htold htime
    obtain ⟨hclosed, hempty⟩ := hcandid htold
    obtain ⟨hlength, hasked, hending⟩ := hcalmNow.whole_of_closed hplan htime hclosed
      fun _ hbroken => exists_sleepingLine hact hbroken
    refine ⟨?_, hasked, hending⟩
    rw [hlength, ← hconserved.entries, hempty, List.append_nil] at haccepted
    exact haccepted
  · intro hspeech consumer request hmem
    have hopens : w.Opens plan now :=
      (World.opens_invariant now).actAll hfree hact (fun _ => World.opens_start now _ _ _) rfl
    exact hcalmNow.inevitably_answered hquiet hplan hcapacity hspeech hopens
      ⟨hconserved, hwatchful, asked_of_mem hact hmem⟩

/-! ### Two watches -/

/-- Two watches over the same answers agree. -/
structure Agree (plan plan' : Plan τ ω) (now now' : τ) (last : Nat)
    (actions actions' : List (Action τ)) (w w' : World τ ω) : Prop where
  first : Steadfast plan now last actions w
  second : Steadfast plan' now' last actions' w'
  /-- What both tell in the end, up to the first outcome that ends the watch. -/
  transcript : ∃ final, plan.verdict last = some final ∧ final.isTerminal = true ∧
    plan.transcript (last + 1) = plan.transcript last ++ [final] ∧
    plan'.transcript (last + 1) = plan.transcript last ++ [final] ∧
    ∀ event ∈ plan.transcript last, event.isTerminal = false
  /-- Consumers that were told the end were told the same before, after as many queries. -/
  same : w.traffic.Told → w'.traffic.Told → w.InTime plan → w'.InTime plan' →
    w.traffic.taken.map Event.untimed = w'.traffic.taken.map Event.untimed ∧
      w.queryTimes.length = w'.queryTimes.length

/-- Two watches that nobody disturbs, over the same answers with one that ends the watch, agree
whatever the pace of the watches, of the service and of the consumers, and however much room their
streams have. -/
theorem agree_at_any_pace [OrderedClock τ] {capacity capacity' : Int}
    {stream stream' : Stream (Event τ)} {now now' : τ} {actions' : List (Action τ)}
    {w' : World τ ω} (hsame : SameWatch plan plan') (hplan : Conclusive plan last)
    (hquiet : plan.Unsignalled) (hquiet' : plan'.Unsignalled)
    (hstream : Stream.create capacity = .ok stream)
    (hstream' : Stream.create capacity' = .ok stream')
    (hcalm : ∀ action ∈ actions, action.IsCalm) (hcalm' : ∀ action ∈ actions', action.IsCalm)
    (hact : (World.start now ⟨false, none⟩ false stream).actAll? plan actions = some w)
    (hact' : (World.start now' ⟨false, none⟩ false stream').actAll? plan' actions' = some w') :
    Agree plan plan' now now' last actions actions' w w' := by
  have hfirst := steadfast hquiet hplan hstream hcalm hact
  have hsecond := steadfast hquiet' (hsame.conclusive hplan) hstream' hcalm' hact'
  obtain ⟨final, hverdict, hterminal, hends, hgoing⟩ := hplan.transcript_eq
  have htranscript := hsame.transcript_eq (last + 1)
  refine ⟨hfirst, hsecond, ⟨final, hverdict, hterminal, hends, ?_, hgoing⟩, ?_⟩
  · rw [← htranscript, hends]
  · intro htold htold' htime htime'
    obtain ⟨htaken, hasked, _⟩ := hfirst.whole htold htime
    obtain ⟨htaken', hasked', _⟩ := hsecond.whole htold' htime'
    exact ⟨by rw [htaken, htaken', htranscript], by rw [hasked, hasked']⟩

/-- A watch like `recovering` that does not pause, over a slow service that then answers at once. -/
def hasty : Plan Int Int where
  config := ⟨"demo", .plain "up", [], 0, 0⟩
  strategy := recovering.strategy
  services
    | 0 => ⟨some 2, [], .failure (.foreign "TimeoutError" [])⟩
    | _ => ⟨none, [], .response (.text "up")⟩
  hook := none
  heard := true

/-- A consumer comes late, when the second event waits for room, and asks for one event after the
other. -/
def oneByOne : List (Action Int) :=
  [.run, .serve 0, .run, .helper 0, .helper 1, .passTime 5, .run, .helper 0, .helper 0, .run,
    .passTime 8, .run, .serve 0, .passTime 20, .ask 0 .receive, .serve 0, .serve 0, .run,
    .ask 1 .receive, .serve 0, .ask 2 .receive, .serve 0]

/-- A consumer waits for everything from the beginning. -/
def allAtOnce : List (Action Int) :=
  [.ask 0 (.collect []), .run, .serve 0, .passTime 2, .run, .serve 0, .serve 0, .run, .serve 0,
    .serve 0, .run, .serve 0]

/-- Both consumers are told of the failure and of the desired status, after two queries. -/
theorem agree_at_any_pace_of_recovering :
    ∃ w w' : World Int Int,
      SameWatch recovering hasty ∧ Conclusive recovering 1 ∧ recovering.Unsignalled ∧
      hasty.Unsignalled ∧ Stream.create 1 = .ok (⟨1, [], false⟩ : Stream (Event Int)) ∧
      Stream.create 2 = .ok (⟨2, [], false⟩ : Stream (Event Int)) ∧
      (∀ action ∈ oneByOne, action.IsCalm) ∧ (∀ action ∈ allAtOnce, action.IsCalm) ∧
      (World.start 0 ⟨false, none⟩ false ⟨1, [], false⟩).actAll? recovering oneByOne = some w ∧
      (World.start 0 ⟨false, none⟩ false ⟨2, [], false⟩).actAll? hasty allAtOnce = some w' ∧
      w.traffic.Told ∧ w'.traffic.Told ∧ w.InTime recovering ∧ w'.InTime hasty ∧
      w.traffic.taken.map Event.kind = [.queryError, .desired] ∧
      (∀ d, ¬Speechless recovering 0 d) ∧ (∀ d, ¬Speechless hasty 0 d) ∧
      Agree recovering hasty 0 0 1 oneByOne allAtOnce w w' := by
  have hsame : SameWatch recovering hasty := ⟨rfl, rfl, rfl, rfl, fun n => by cases n <;> rfl⟩
  have hplan : Conclusive recovering 1 := by
    constructor
    · intro number hnumber
      obtain rfl | rfl : number = 0 ∨ number = 1 := by omega
      · exact ⟨⟨false, rfl⟩, _, rfl⟩
      · exact fun _ => ⟨_, _, _, rfl, rfl, rfl, rfl⟩
    · intro number hnumber event hevent
      obtain rfl : number = 0 := by omega
      cases hevent
      rfl
    · intro event hevent
      cases hevent
      rfl
  have hquiet : recovering.Unsignalled :=
    ⟨fun n => by cases n <;> rfl, fun _ hhook => by cases hhook⟩
  have hquiet' : hasty.Unsignalled :=
    ⟨fun n => by cases n <;> rfl, fun _ hhook => by cases hhook⟩
  have hstream : Stream.create 1 = .ok (⟨1, [], false⟩ : Stream (Event Int)) := rfl
  have hstream' : Stream.create 2 = .ok (⟨2, [], false⟩ : Stream (Event Int)) := rfl
  have hcalm : ∀ action ∈ oneByOne, action.IsCalm := by
    simp [oneByOne, Action.IsCalm, Ask.receives]
  have hcalm' : ∀ action ∈ allAtOnce, action.IsCalm := by
    simp [allAtOnce, Action.IsCalm, Ask.receives]
  obtain ⟨w, hact, htold, hkinds⟩ : ∃ w : World Int Int,
      (World.start 0 ⟨false, none⟩ false ⟨1, [], false⟩).actAll? recovering oneByOne = some w ∧
        w.traffic.Told ∧ w.traffic.taken.map Event.kind = [.queryError, .desired] :=
    ⟨_, rfl, by decide, rfl⟩
  obtain ⟨w', hact', htold'⟩ : ∃ w' : World Int Int,
      (World.start 0 ⟨false, none⟩ false ⟨2, [], false⟩).actAll? hasty allAtOnce = some w' ∧
        w'.traffic.Told := ⟨_, rfl, by decide⟩
  have hdated (plan : Plan Int Int) (instant : Int) : ¬Undated plan instant := by
    simp [Undated, Log.canRecord, Clock.stamp?]
  have hexact (plan : Plan Int Int) (w : World Int Int) : w.InTime plan :=
    ⟨fun _ _ => Option.some_ne_none _, fun _ _ _ _ => hdated plan _,
      fun _ _ _ => Option.some_ne_none _⟩
  have hspeech (plan : Plan Int Int) (htexts : ∀ delay ∈ [plan.config.initialWait,
      plan.config.pollInterval], (Wait.text delay).toBool = true) (d : Defect) :
      ¬Speechless plan 0 d := by
    rintro (⟨hgiven, hunwritten⟩ | ⟨hundated, _⟩)
    · have htext := htexts _ hgiven
      rw [hunwritten] at htext
      cases htext
    · exact hdated plan 0 hundated
  exact ⟨w, w', hsame, hplan, hquiet, hquiet', hstream, hstream', hcalm, hcalm', hact, hact', htold,
    htold', hexact _ _, hexact _ _, hkinds,
    hspeech _ (by decide), hspeech _ (by decide),
    agree_at_any_pace hsame hplan hquiet hquiet' hstream hstream' hcalm hcalm' hact hact'⟩

/-- A watch over a service that shows some status first and then the desired one. -/
def starting (interval : Amount) (status : Value) : Plan Float Amount where
  config := ⟨"demo", .plain "up", [], .whole 0, interval⟩
  strategy := recovering.strategy
  services
    | 0 => ⟨none, [], .response status⟩
    | _ => ⟨none, [], .response (.text "up")⟩
  hook := none
  heard := true

/-- A consumer waits for everything, and the watch pauses once. -/
def pauseOnce (due : Float) : List (Action Float) :=
  [.ask 0 (.collect []), .run, .serve 0, .serve 0, .serve 0, .run, .helper 0, .helper 1,
    .passTime due, .run, .helper 0, .helper 0, .run, .serve 0]

/-- These watches are accepted, their strategy reads everything, and their second result ends them.
Still they do not agree: with a pause of a second the consumer is told of both results, and with one
that ends beyond the calendar only of the first.  If the first status is one that cannot be looked
up or written, the consumer is told of none.  And if the pause cannot be written, the run is over
before its first query and the consumer waits on a stream that nobody closes. -/
theorem starting_not_agree :
    (∀ interval ∈ [Amount.whole 1, Amount.whole (pow10 12), Amount.whole (pow10 4300)],
      WaitConfig.make (some (.plain "demo")) (some (.plain "up")) [] (some (.whole 0))
        (some interval) = .ok (starting interval (.text "starting")).config) ∧
    (∀ payload, ∃ status, recovering.strategy.statusOf payload = .ok status) ∧
    (∀ payload, ∃ fields, recovering.strategy.logFields payload = .ok fields) ∧
    (∀ f, ∃ gone, recovering.strategy.isAbsent f = .ok gone) ∧
    SameWatch (starting (.whole 1) (.text "starting"))
      (starting (.whole (pow10 12)) (.text "starting")) ∧
    (∀ interval status, (starting interval status).Unsignalled ∧
      ∃ final, (starting interval status).verdict 1 = some final ∧ final.isTerminal = true) ∧
    (∀ due, ∀ action ∈ pauseOnce due ++ [.serve 0, .run, .serve 0], action.IsCalm) ∧
    (∃ w w' : World Float Amount,
      (World.start Clock.zero ⟨false, none⟩ false ⟨1, [], false⟩).actAll?
        (starting (.whole 1) (.text "starting")) (pauseOnce 1 ++ [.serve 0, .run, .serve 0]) =
          some w ∧
      (World.start Clock.zero ⟨false, none⟩ false ⟨1, [], false⟩).actAll?
        (starting (.whole (pow10 12)) (.text "starting")) (pauseOnce 1e12) = some w' ∧
      w.traffic.Told ∧ w'.traffic.Told ∧
      w.traffic.taken.map Event.kind = [.progress, .desired] ∧
      w'.traffic.taken.map Event.kind = [.progress]) ∧
    (∀ status ∈ [Value.list [.null], .whole (pow10 4300)], ∃ w : World Float Amount,
      (World.start Clock.zero ⟨false, none⟩ false ⟨1, [], false⟩).actAll?
        (starting (.whole 1) status) [.ask 0 (.collect []), .serve 0, .run, .serve 0] = some w ∧
      w.traffic.Told ∧ w.traffic.taken.map Event.kind = []) ∧
    ∃ w : World Float Amount,
      (World.start Clock.zero ⟨false, none⟩ false ⟨1, [], false⟩).actAll?
        (starting (.whole (pow10 4300)) (.text "starting"))
          [.ask 0 (.collect []), .serve 0, .run] = some w ∧
      w.ending? = some (.mute .unwritable) ∧ w.traffic.stream.closed = false ∧
      w.traffic.finished.length = 0 := by
  refine ⟨?_, fun v => ⟨v, rfl⟩, fun _ => ⟨[], rfl⟩, fun _ => ⟨false, rfl⟩,
    ⟨rfl, rfl, rfl, rfl, fun n => by cases n <;> rfl⟩, fun interval status => ⟨?_, ?_⟩, ?_, ?_, ?_,
    ?_⟩
  · intro interval hinterval
    refine make_of_not_negative ?_
    simp only [List.mem_cons, List.not_mem_nil, or_false] at hinterval
    rcases hinterval with rfl | rfl | rfl <;> decide +kernel
  · exact ⟨fun n => by cases n <;> rfl, fun _ hhook => by cases hhook⟩
  · exact ⟨_, rfl, rfl⟩
  · intro due
    simp [pauseOnce, Action.IsCalm, Ask.receives]
  · obtain ⟨w, hact, htold, hkinds⟩ : ∃ w : World Float Amount,
        (World.start Clock.zero ⟨false, none⟩ false ⟨1, [], false⟩).actAll?
          (starting (.whole 1) (.text "starting")) (pauseOnce 1 ++ [.serve 0, .run, .serve 0]) =
            some w ∧
        w.traffic.Told ∧ w.traffic.taken.map Event.kind = [.progress, .desired] := by
      decide +kernel
    obtain ⟨w', hact', htold', hkinds'⟩ : ∃ w : World Float Amount,
        (World.start Clock.zero ⟨false, none⟩ false ⟨1, [], false⟩).actAll?
          (starting (.whole (pow10 12)) (.text "starting")) (pauseOnce 1e12) = some w ∧
        w.traffic.Told ∧ w.traffic.taken.map Event.kind = [.progress] := by
      decide +kernel
    exact ⟨w, w', hact, hact', htold, htold', hkinds, hkinds'⟩
  · decide +kernel
  · decide +kernel

end Vigil.Watch
