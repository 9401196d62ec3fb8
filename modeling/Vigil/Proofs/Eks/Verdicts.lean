import Vigil.Eks.Subject
import Vigil.Proofs.Failure.Wording
import Vigil.Proofs.Watch.Absence

/-!
# Verdicts about clusters and updates

To say that a cluster is gone, or that it is ready, when it is not is the costliest mistake that a
watch can make.  Here it is excluded: what a watch says at its end follows from the last answer of
the service, for every sequence of answers.  Only a stream that somebody else closed, or a moment of
which no record can be made, keeps a watch from saying it.
-/

namespace Vigil.Eks

open Vigil.Stream (Denial)
open Vigil.Watch

variable {τ ω : Type}

section Verdicts

variable [Clock τ] [Wait ω] [Spans ω τ]

/-- What holds of every watch of a cluster or an update. -/
structure Verdict (plan : Plan τ ω) (actions : List (Action τ)) (w : World τ ω) : Prop where
  /-- Good news is true: the last answer shows the desired status, or the resource is gone and was
  to go. -/
  good : ∀ event ∈ w.traffic.accepted, event.isTerminal = true → event.isOk = true →
    LastReading (ShowsGoal plan) w.readings ∨
      plan.strategy.absentStatus = some plan.config.desired.text ∧
        LastReading (SaysGone plan.strategy) w.readings
  /-- A run whose event was turned down says neither. -/
  silent : ∀ d, w.ending? = some (.denied d) →
    .absent ∉ w.traffic.accepted ∧ ∀ f, .notFound f ∉ w.traffic.accepted
  /-- No event is turned down if the consumers only receive. -/
  heard : (∀ action ∈ actions, action.OnlyReceives) → ∀ d, w.ending? ≠ some (.denied d)

/-- What a watch of an update says about the update. -/
structure UpdateVerdict (plan : Plan τ ω) (actions : List (Action τ)) (w : World τ ω) : Prop
    extends Verdict plan actions w where
  neverAbsent : .absent ∉ w.traffic.accepted
  /-- A failure that says that the update is missing ends the watch. -/
  missing : ∀ number r f, w.readings[number]? = some r → r.result = .failure f →
    updateAbsence.isAbsent f = .ok true →
      w.queryTimes.length = number + 1 ∧
      (w.ending? = none → ∃ ticket, w.run.phase =
        .sending ticket (.notFound (.notFound plan.config.resource (some f)))) ∧
      ∀ how, w.ending? = some how → how ≠ .cancelled → (∀ d, how ≠ .denied d) →
        (∀ instant, w.endedAt = some instant → ¬Undated plan instant) →
        w.traffic.accepted.getLast? =
          some (.notFound (.notFound plan.config.resource (some f)))

/-- What a watch of a cluster says about the cluster. -/
structure ClusterVerdict (plan : Plan τ ω) (actions : List (Action τ)) (w : World τ ω) : Prop
    extends Verdict plan actions w where
  absent : ∀ how, w.ending? = some how → how ≠ .cancelled → (∀ d, how ≠ .denied d) →
    (∀ instant, w.endedAt = some instant → ¬Undated plan instant) →
    (.absent ∈ w.traffic.accepted ↔
      plan.config.desired.text = ClusterStatus.gone.word ∧
        LastReading (SaysGone clusterStrategy) w.readings)
  notFound : ∀ how, w.ending? = some how → how ≠ .cancelled → (∀ d, how ≠ .denied d) →
    (∀ instant, w.endedAt = some instant → ¬Undated plan instant) →
    ((∃ f, .notFound f ∈ w.traffic.accepted) ↔
      plan.config.desired.text ≠ ClusterStatus.gone.word ∧
        LastReading (SaysGone clusterStrategy) w.readings)

end Verdicts

end Vigil.Eks

/-! ### Parameters -/

namespace Vigil.WaitConfig

variable {ω : Type} [Wait ω] {resource : Option Label} {goal : Label} {failures : List String}
variable {initialWait pollInterval : ω}

theorem not_mem_failures_of_make {config : WaitConfig ω}
    (hmake : make resource (some goal) failures (some initialWait) (some pollInterval) =
      .ok config) : goal.text ∉ failures := by
  intro hgoal
  have hcontains : failures.contains goal.text = true := by simpa using hgoal
  cases resource with
  | none => cases hmake
  | some resource =>
      simp only [make, hcontains, bind, Except.bind, throw, throwThe, MonadExceptOf.throw, pure,
        Except.pure] at hmake
      split_ifs at hmake

/-- Waits that are numbers are turned down as a matter of configuration, if at all, unless the
message has to show a number of too many digits. -/
theorem exists_configuration_of_make {fault : Fault ω}
    (hmake : make resource (some goal) failures (some initialWait) (some pollInterval) =
      .error fault)
    (hwritten : ∀ wait ∈ [initialWait, pollInterval], Wait.isNegative wait = true →
      ∃ text, Wait.text wait = .ok text) :
    ∃ args, fault.toFailure = .ok (.configuration args) := by
  have hnegative {wait : ω} (hmember : wait ∈ [initialWait, pollInterval])
      (hwait : Wait.isNegative wait = true) (opening : String) :
      ∃ args, (do return Failure.configuration [.text (opening ++ (← Wait.text wait))]) =
        (.ok (.configuration args) : Except Defect Failure) := by
    obtain ⟨text, htext⟩ := hwritten wait hmember hwait
    exact ⟨_, by rw [htext]; rfl⟩
  have hquoted : ∃ text, goal.toValue.quoted = .ok text := by
    cases goal <;> exact ⟨_, rfl⟩
  cases resource with
  | none =>
      cases hmake
      exact ⟨_, rfl⟩
  | some resource =>
      simp only [make, bind, Except.bind, throw, throwThe, MonadExceptOf.throw, pure,
        Except.pure] at hmake
      split_ifs at hmake with _ _ hinitial hinterval _
      · cases hmake
        exact ⟨_, rfl⟩
      · cases hmake
        exact ⟨_, rfl⟩
      · cases hmake
        exact hnegative List.mem_cons_self hinitial _
      · cases hmake
        exact hnegative (List.mem_cons_of_mem _ List.mem_cons_self) hinterval _
      · cases hmake
        obtain ⟨text, htext⟩ := hquoted
        exact ⟨_, by rw [Fault.toFailure, htext]; rfl⟩

end Vigil.WaitConfig

namespace Vigil.Eks

open Vigil.Number (Amount)
open Vigil.Watch

variable {τ ω : Type}

section Parameters

variable [Wait ω] {subject : Subject} {services : Nat → Service τ}
variable {hook : Option (Snapshot τ → Reaction)} {heard : Bool}

theorem strategy_of_plan {plan : Plan τ ω} {resource desired : Option Label}
    {initialWait pollInterval : Option ω}
    (hplan : subject.plan resource desired initialWait pollInterval services hook heard = .ok plan) :
    plan.strategy = subject.strategy := by
  rw [Subject.plan] at hplan
  cases hmake : WaitConfig.make resource desired subject.failures initialWait pollInterval with
  | error fault =>
      rw [hmake] at hplan
      cases hplan
  | ok config =>
      rw [hmake] at hplan
      cases hplan
      rfl

/-- A goal that is a failure status is turned down, whatever else is wrong, and no watch begins. -/
theorem plan_of_failure_goal {resource : Option Label} {goal : Label} {initialWait pollInterval : ω}
    (hgoal : goal.text ∈ subject.failures) :
    ∃ fault,
      subject.plan resource (some goal) (some initialWait) (some pollInterval) services hook heard =
        .error fault ∧
      ((∀ wait ∈ [initialWait, pollInterval], Wait.isNegative wait = true →
        ∃ text, Wait.text wait = .ok text) →
          ∃ args, fault.toFailure = .ok (.configuration args)) := by
  cases hmake : WaitConfig.make resource (some goal) subject.failures (some initialWait)
      (some pollInterval) with
  | ok config => exact absurd hgoal (WaitConfig.not_mem_failures_of_make hmake)
  | error fault =>
      refine ⟨fault, ?_, WaitConfig.exists_configuration_of_make hmake⟩
      rw [Subject.plan, hmake]
      rfl

end Parameters

/-! ### What says that something is gone -/

/-- A rule for absence has read the text of a failure before it says that the resource is gone. -/
theorem spelled_cluster : Spelled clusterStrategy := fun _ h =>
  AbsenceRule.exists_text_of_isAbsent h

theorem spelled_update (name : String) : Spelled (updateStrategy name) := fun _ h =>
  AbsenceRule.exists_text_of_isAbsent h

/-! ### Every moment of a watch -/

variable [Clock τ] [Wait ω] [Spans ω τ] {plan : Plan τ ω} {w : World τ ω}
variable {actions : List (Action τ)}

theorem verdict_of_faithful (h : Faithful plan w)
    (hheard : (∀ action ∈ actions, action.OnlyReceives) → ∀ d, w.ending? ≠ some (.denied d)) :
    Verdict plan actions w where
  good _ hevent hterminal hok := h.standing.of_good hevent hterminal hok
  silent d hdenied := by
    have hgoing := h.going_of_denied hdenied
    constructor
    · intro hin
      cases hgoing _ hin
    · intro f hin
      cases hgoing _ hin
  heard := hheard

theorem updateVerdict_of_faithful (h : Faithful plan w) (hverdict : Verdict plan actions w)
    {name : String} (hstrategy : plan.strategy = updateStrategy name) :
    UpdateVerdict plan actions w where
  toVerdict := hverdict
  neverAbsent := by
    intro hin
    have hgoal := (h.standing.of_absent hin).1
    rw [hstrategy] at hgoal
    cases hgoal
  missing number r f hreading hresult hmissing := by
    have hgone : SaysGone plan.strategy r.result := by
      rw [hresult, hstrategy]
      exact hmissing
    have hevent : (goneEvent plan f : Event τ) =
        .notFound (.notFound plan.config.resource (some f)) := by
      have hnone : (updateStrategy name).absentStatus = none := rfl
      rw [goneEvent, hstrategy, hnone, if_neg (Option.some_ne_none _).symm]
    obtain ⟨hasked, earlier, hsplit⟩ := h.last_of_saysGone hreading hgone
    refine ⟨hasked, ?_, ?_⟩
    · intro hgoing
      rw [← hevent]
      exact h.sending_of_saysGone hsplit hresult hgone hgoing
    · intro how hhow hcancelled hdenied hdated
      rw [← hevent]
      exact h.getLast?_of_saysGone hsplit hresult hgone hhow hcancelled hdenied hdated

omit [Clock τ] [Wait ω] [Spans ω τ] in
theorem absenceDesired_iff (hstrategy : plan.strategy = clusterStrategy) :
    plan.strategy.absentStatus = some plan.config.desired.text ↔
      plan.config.desired.text = ClusterStatus.gone.word := by
  have hword : clusterStrategy.absentStatus = some ClusterStatus.gone.word := rfl
  rw [hstrategy, hword, Option.some.injEq, eq_comm]

theorem clusterVerdict_of_faithful (h : Faithful plan w) (hverdict : Verdict plan actions w)
    (hstrategy : plan.strategy = clusterStrategy) : ClusterVerdict plan actions w where
  toVerdict := hverdict
  absent how hhow hcancelled hdenied hdated := by
    rw [h.absent_mem_iff hhow hcancelled hdenied hdated, absenceDesired_iff hstrategy, hstrategy]
  notFound how hhow hcancelled hdenied hdated := by
    rw [h.notFound_mem_iff hhow hcancelled hdenied hdated, Ne, absenceDesired_iff hstrategy,
      hstrategy]

/-- Whatever the service answers and whatever the goal is, a watch of a cluster or of an update says
that it is gone, or ready, only if the last answer says so; and it says so unless somebody else
closed its stream.  A goal that is a failure status is turned down before a watch begins. -/
theorem verdicts_of_watch {capacity : Int} {stream : Stream (Event τ)} {now : τ}
    {cancellation : Cancellation τ} {stopped : Bool} {resource desired : Option Label}
    {initialWait pollInterval : Option ω} {services : Nat → Service τ}
    {hook : Option (Snapshot τ → Reaction)} {heard : Bool} (name : String)
    (hstream : Stream.create capacity = .ok stream)
    (hconsumers : ∀ action ∈ actions, action.OffersNothing) :
    (∀ plan w,
      (update name).plan resource desired initialWait pollInterval services hook heard = .ok plan →
      (World.start now cancellation stopped stream).actAll? plan actions = some w →
        UpdateVerdict plan actions w) ∧
    (∀ plan w,
      cluster.plan resource desired initialWait pollInterval services hook heard = .ok plan →
      (World.start now cancellation stopped stream).actAll? plan actions = some w →
        ClusterVerdict plan actions w) ∧
    ∀ subject ∈ [cluster, update name], ∀ (goal : Label) (initialWait pollInterval : ω),
      goal.text ∈ subject.failures → ∃ fault,
        subject.plan resource (some goal) (some initialWait) (some pollInterval) services hook
          heard = .error fault ∧
        ((∀ wait ∈ [initialWait, pollInterval], Wait.isNegative wait = true →
          ∃ text, Wait.text wait = .ok text) →
            ∃ args, fault.toFailure = .ok (.configuration args)) := by
  have hopen : stream.closed = false := by rw [(Stream.create_eq_ok hstream).1]
  have hverdict {plan : Plan τ ω} {w : World τ ω} (hspelled : Spelled plan.strategy)
      (hact : (World.start now cancellation stopped stream).actAll? plan actions = some w) :
      Faithful plan w ∧ Verdict plan actions w := by
    have hfaithful := faithful_of_actAll? hopen hspelled hconsumers hact
    refine ⟨hfaithful, verdict_of_faithful hfaithful fun honly d hdenied => ?_⟩
    have htame : ∀ action ∈ actions, Tame True action := fun action ha =>
      ⟨hconsumers action ha, fun _ => honly action ha⟩
    obtain ⟨_, _, hover⟩ := (sound_of_actAll? hopen htame hact).over hdenied
    exact hover.ne_denied rfl
  refine ⟨?_, ?_, ?_⟩
  · intro plan w hplan hact
    have hstrategy := strategy_of_plan hplan
    obtain ⟨hfaithful, hboth⟩ := hverdict (hstrategy ▸ spelled_update name) hact
    exact updateVerdict_of_faithful hfaithful hboth hstrategy
  · intro plan w hplan hact
    have hstrategy := strategy_of_plan hplan
    obtain ⟨hfaithful, hboth⟩ := hverdict (hstrategy ▸ spelled_cluster) hact
    exact clusterVerdict_of_faithful hfaithful hboth hstrategy
  · intro subject _ goal initialWait pollInterval hgoal
    exact plan_of_failure_goal hgoal

/-- The service refuses to describe something that it does not know. -/
def unknown (message : String) : Service Int :=
  ⟨some 3, [], .failure (.refused (.ofTexts notFoundCode message "Describe"))⟩

/-- A cluster that is to go and goes. -/
def vanishing : Nat → Service Int
  | 0 => ⟨none, [], .response (.table [("cluster", .table [("status", .text "DELETING")])])⟩
  | _ => unknown "No cluster found for name: demo."

/-- The second query is answered after four seconds and ends the watch. -/
def goneByFour : List (Action Int) :=
  [.run, .serve 0, .run, .helper 0, .helper 1, .passTime 1, .run, .helper 0, .helper 0, .run,
    .passTime 4, .run, .serve 0, .run]

/-- The watch of a cluster that goes away ends with the good news, at the second query. -/
theorem verdicts_of_vanishing :
    ∃ (plan : Plan Int Int) (w : World Int Int),
      Stream.create 10 = .ok (⟨10, [], false⟩ : Stream (Event Int)) ∧
      cluster.plan (some (.plain "demo")) (some (.word (.cluster .gone))) (some 0) (some 1)
        vanishing none true = .ok plan ∧
      (World.start 0 ⟨false, none⟩ false ⟨10, [], false⟩).actAll? plan goneByFour = some w ∧
      w.ending? = some .finished ∧ .absent ∈ w.traffic.accepted ∧
      ClusterVerdict plan goneByFour w := by
  have hstream : Stream.create 10 = .ok (⟨10, [], false⟩ : Stream (Event Int)) := rfl
  obtain ⟨plan, w, hplan, hact, hending, hlast⟩ : ∃ (plan : Plan Int Int) (w : World Int Int),
      cluster.plan (some (.plain "demo")) (some (.word (.cluster .gone))) (some 0) (some 1)
        vanishing none true = .ok plan ∧
      (World.start 0 ⟨false, none⟩ false ⟨10, [], false⟩).actAll? plan goneByFour = some w ∧
      w.ending? = some .finished ∧ w.traffic.accepted.getLast? = some .absent :=
    ⟨_, _, rfl, rfl, rfl, rfl⟩
  have hconsumers : ∀ action ∈ goneByFour, action.OffersNothing := by
    simp [goneByFour, Action.OffersNothing]
  have hverdict := (verdicts_of_watch "demo" hstream hconsumers).2.1 plan w hplan hact
  exact ⟨plan, w, hstream, hplan, hact, hending, List.mem_of_getLast? hlast, hverdict⟩

/-- An update that is on its way and is then unknown. -/
def forgotten : Nat → Service Int
  | 0 => ⟨none, [], .response (.table [("update", .table [("status", .text "InProgress")])])⟩
  | _ => unknown "No update found for ID: u-1"

/-- A watch of an update that is on its way and, when no calendar shows the instant any more, is
unknown. -/
def forgottenLate : Plan Float Amount where
  config := ⟨"u-1", .word (.update .successful), updateFailures, .whole 0, .whole 1⟩
  strategy := updateStrategy "demo"
  services
    | 0 => ⟨none, [], .response (.table [("update", .table [("status", .text "InProgress")])])⟩
    | _ => ⟨some 1e12, [], (unknown "No update found for ID: u-1").answer⟩
  hook := none
  heard := true

/-- Nobody disturbs the run, and its second query takes very long. -/
def answeredLate : List (Action Float) :=
  [.run, .serve 0, .run, .helper 0, .helper 1, .passTime 1, .run, .helper 0, .helper 0, .run,
    .passTime (1e12 + 1), .run]

/-- Two watches whose tasks are not cancelled, and whose last event still says that the update is in
progress.  Somebody else closes the stream of the first during the query that finds the update
missing, and nobody can log what the second finds. -/
theorem forgotten_ends_without_notFound :
    (∃ (plan : Plan Int Int) (w : World Int Int) (r : Reading Int) (f : Failure)
      (snapshot : Snapshot Int),
      (update "demo").plan (some (.plain "u-1")) (some (.word (.update .successful))) (some 0)
        (some 1) forgotten none true = .ok plan ∧
      (World.start 0 ⟨false, none⟩ false ⟨10, [], false⟩).actAll? plan
        [.run, .serve 0, .run, .helper 0, .helper 1, .passTime 1, .run, .helper 0, .helper 0,
          .run, .ask 0 .close, .serve 0, .passTime 4, .run, .serve 0, .run] = some w ∧
      w.readings[1]? = some r ∧ r.result = .failure f ∧ updateAbsence.isAbsent f = .ok true ∧
      w.run.killed = false ∧ w.ending? = some (.denied .sendAfterClose) ∧
      w.traffic.accepted = [.progress snapshot]) ∧
    ∃ (w : World Float Amount) (r : Reading Float) (f : Failure),
      (update "demo").plan (some (.plain "u-1")) (some (.word (.update .successful)))
        (some (.whole 0)) (some (.whole 1)) forgottenLate.services none true = .ok forgottenLate ∧
      (∀ action ∈ answeredLate, action.OnlyReceives) ∧
      (World.start Clock.zero ⟨false, none⟩ false ⟨10, [], false⟩).actAll? forgottenLate
        answeredLate = some w ∧
      w.readings[1]? = some r ∧ r.result = .failure f ∧ updateAbsence.isAbsent f = .ok true ∧
      w.run.killed = false ∧ w.ending? = some (.broken .tooLarge) ∧
      w.traffic.accepted.map Event.kind = [.progress] := by
  refine ⟨⟨_, _, _, _, _, rfl, rfl, rfl, rfl, rfl, rfl, rfl, rfl⟩, ?_⟩
  have honly : ∀ action ∈ answeredLate, action.OnlyReceives := by
    simp [answeredLate, Action.OnlyReceives]
  obtain ⟨w, hact, hlength, hw⟩ : ∃ w : World Float Amount,
      (World.start Clock.zero ⟨false, none⟩ false ⟨10, [], false⟩).actAll? forgottenLate
        answeredLate = some w ∧
      1 < w.readings.length ∧ w.run.killed = false ∧ w.ending? = some (.broken .tooLarge) ∧
      w.traffic.accepted.map Event.kind = [.progress] := by
    decide +kernel
  have hsound : Sound forgottenLate False .held w.books :=
    sound_of_actAll? rfl (fun action ha => ⟨(honly action ha).offersNothing, False.elim⟩) hact
  have hread := List.getElem?_eq_getElem hlength
  exact ⟨w, _, _, rfl, honly, hact, hread, (hsound.kept.numbered 1 _ hread).2, rfl, hw⟩

end Vigil.Eks
