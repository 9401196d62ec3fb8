import Vigil.Proofs.Eks.Garbled
import Vigil.Proofs.Watch.Follower
import Vigil.Proofs.Watch.LastEvent
import Vigil.Watch.Session

/-!
# What a caller who waits is told

A caller who waits for the end of a watch is told its last event.  That is what the caller was
promised unless the run broke: then the last event may be one that says nothing about how the watch
ended.
-/

namespace Vigil.Watch

variable {τ ω : Type}

/-- The event is good news: the watch saw what it was to wait for. -/
def IsGoal (plan : Plan τ ω) : Event τ → Prop
  | .desired snapshot => snapshot.status.asText? = some plan.config.desired.text
  | .absent => plan.strategy.absentStatus = some plan.config.desired.text
  | _ => False

/-- The event is neither good news nor a failure of the watch: it was a report on the way. -/
def IsInterim : Event τ → Prop
  | .progress _ => True
  | .queryError _ => True
  | _ => False

/-- What a caller who waits is promised about the last event: good news or a failure of the watch,
and no failure of a query that was only reported on the way. -/
structure Promised (plan : Plan τ ω) (newest : Option (Event τ)) : Prop where
  goal : ∀ event, Session.verdict plan.config.resource newest = .ok event → IsGoal plan event
  own : ∀ f, Session.verdict plan.config.resource newest = .error f → f.isOwn = true
  lasting : ∀ f, newest ≠ some (.queryError f)

theorem not_promised_of_interim {plan : Plan τ ω} {event : Event τ} (h : IsInterim event) :
    ¬Promised plan (some event) := by
  intro hpromised
  cases event with
  | progress snapshot => exact hpromised.goal _ rfl
  | queryError f => exact hpromised.lasting f rfl
  | _ => exact h

theorem promised_none (plan : Plan τ ω) : Promised plan none where
  goal _ hverdict := by cases hverdict
  own f hverdict := by
    cases hverdict
    rfl
  lasting _ hnewest := by cases hnewest

theorem promised_of_goal {plan : Plan τ ω} {event : Event τ} (h : IsGoal plan event) :
    Promised plan (some event) := by
  have hverdict : Session.verdict plan.config.resource (some event) = .ok event := by
    cases event with
    | desired snapshot => rfl
    | absent => rfl
    | _ => exact h.elim
  constructor
  · intro event' hgoal
    rw [hverdict] at hgoal
    cases hgoal
    exact h
  · intro f hown
    rw [hverdict] at hown
    cases hown
  · intro f hnewest
    cases hnewest
    exact h

theorem promised_of_own {plan : Plan τ ω} {event : Event τ} {f : Failure}
    (hfailure : event.failure? = some f) (hown : f.isOwn = true)
    (hlasting : ∀ f, event ≠ .queryError f) : Promised plan (some event) := by
  have hverdict : Session.verdict plan.config.resource (some event) = .error f := by
    simp [Session.verdict, hfailure]
  constructor
  · intro event' hgoal
    rw [hverdict] at hgoal
    cases hgoal
  · intro f' hfailed
    rw [hverdict] at hfailed
    cases hfailed
    exact hown
  · intro f' hnewest
    exact hlasting f' (Option.some.inj hnewest)

variable {plan : Plan τ ω} {event : Event τ}

theorem promised_of_isAbort (h : IsAbort plan event) : Promised plan (some event) := by
  cases h with
  | cancelled exceeded => exact promised_of_own rfl rfl fun _ heq => by cases heq
  | stopped => exact promised_of_own rfl rfl fun _ heq => by cases heq

theorem IsInterim.isTerminal (h : IsInterim event) : event.isTerminal = false := by
  cases event with
  | progress snapshot => rfl
  | queryError f => rfl
  | _ => exact h.elim

variable [Clock τ]

/-- The outcome of a reading is a report on the way or what the caller was promised. -/
theorem Reading.promised_of_outcome {r : Reading τ} (h : r.outcome plan = some event)
    (hinterim : ¬IsInterim event) : Promised plan (some event) := by
  obtain ⟨instant, number, result⟩ := r
  simp only [Reading.outcome] at h
  cases result with
  | cancelled => cases h
  | failure f =>
      simp only [Watch.outcome] at h
      split at h
      · split_ifs at h with hgoal
        · cases h
          exact promised_of_goal hgoal
        · cases h
          exact promised_of_own rfl rfl fun _ heq => by cases heq
      · cases h
        exact absurd trivial hinterim
      · cases h
  | payload v =>
      simp only [Watch.outcome] at h
      split_ifs at h with htruthy
      · split at h
        · split_ifs at h with hdesired hfailed
          · cases h
            exact promised_of_goal hdesired
          · cases h
            exact promised_of_own rfl rfl fun _ heq => by cases heq
          · cases h
            exact absurd trivial hinterim
        · cases h
      · cases h
        exact promised_of_own rfl rfl fun _ heq => by cases heq

/-- Every event that covers a reading is an outcome. -/
theorem Covers.outcome_of_mem {readings : List (Reading τ)} {asked : Nat}
    {events : List (Event τ)} (h : Covers plan readings asked events) (hevent : event ∈ events) :
    ∃ r : Reading τ, r.outcome plan = some event := by
  have hmatches {covered : List (Reading τ)} (hm : Matches plan events covered) :
      ∃ r : Reading τ, r.outcome plan = some event := by
    have hin : some event ∈ covered.map (Reading.outcome plan) := by
      rw [← hm.outcomes]
      exact List.mem_map_of_mem hevent
    obtain ⟨r, _, hr⟩ := List.mem_map.mp hin
    exact ⟨r, hr⟩
  cases h with
  | all behind _ => exact hmatches behind
  | allButNewest _ behind _ => exact hmatches behind

theorem Next.promised {readings : List (Reading τ)} {prior : List (Event τ)}
    (h : Next plan readings prior event) (hterminal : event.isTerminal = true) :
    Promised plan (some event) := by
  cases h with
  | aborted _ abort => exact promised_of_isAbort abort
  | observed _ _ outcome =>
      apply Reading.promised_of_outcome outcome
      intro hinterim
      rw [hinterim.isTerminal] at hterminal
      cases hterminal

/-- The last answer was garbled, or it came when the calendar had ended. -/
def Misread (strategy : Strategy) (readings : List (Reading τ)) : Prop :=
  ∃ earlier r, readings = earlier ++ [r] ∧
    (Eks.Garbled strategy r.result ∨
      ∃ v, r.result = .payload v ∧ v.truthy = true ∧ Clock.stamp? r.instant = none)

variable [Wait ω] [Spans ω τ]

/-- Why a run broke: it could not read the last answer, the next pause was too long, or no record
could be made of what there was to log. -/
inductive Broken (plan : Plan τ ω) (w : World τ ω) (d : Defect) : Prop
  | misread (reason : Misread plan.strategy w.readings)
  | overlong (reason : Overlong plan d)
  | undated {instant : τ} (ended : w.endedAt = some instant) (reason : Undated plan instant)

/-- The run broke after it had reported something on the way, and that report is the last event. -/
structure BrokenOff (plan : Plan τ ω) (w : World τ ω) (newest : Option (Event τ)) : Prop where
  interim : ∃ event, newest = some event ∧ IsInterim event
  broken : ∃ d, w.ending? = some (.broken d) ∧ Broken plan w d

theorem Cause.broken {w : World τ ω} {instant : τ} {d : Defect}
    (hstrategy : Eks.IsStrategy plan.strategy) (hended : w.endedAt = some instant)
    (h : Cause plan instant w.readings d) : Broken plan w d := by
  cases h with
  | unreadable split reason =>
      exact .misread ⟨_, _, split, hstrategy.unreadable_iff.mp ⟨d, reason⟩⟩
  | overlong reason => exact .overlong reason
  | undated reason _ => exact .undated hended reason

/-- A run that did not break leaves behind what its caller was promised; one that broke does so
unless its last event is a report on the way. -/
theorem Over.promised {instant : τ} {killed : Bool} {readings : List (Reading τ)} {asked : Nat}
    {events : List (Event τ)} {how : Ending}
    (h : Over plan True instant killed readings asked events how)
    (hsound : ∀ d, how = .broken d → ∀ event, events.getLast? = some event → ¬IsInterim event) :
    Promised plan events.getLast? := by
  have hcovered {d : Defect} (hhow : how = .broken d)
      (hcovers : Covers plan readings asked events) : Promised plan events.getLast? := by
    cases hlast : events.getLast? with
    | none => exact promised_none plan
    | some event =>
        obtain ⟨r, hr⟩ := hcovers.outcome_of_mem (List.mem_of_getLast? hlast)
        exact r.promised_of_outcome hr (hsound d hhow event hlast)
  cases h with
  | finished _ accepted terminal next _ =>
      rw [accepted, List.getLast?_concat]
      exact next.promised terminal
  | denied _ notLone _ => exact absurd trivial notLone
  | cancelled _ accepted =>
      rcases accepted with accepted | ⟨notLone, _⟩
      · rw [accepted, List.getLast?_concat]
        exact promised_of_isAbort (.cancelled false)
      · exact absurd trivial notLone
  | broken _ covers _ => exact hcovered rfl covers
  | unwritten _ covers _ => exact hcovered rfl covers
  | mute _ _ nothing =>
      rw [nothing.2.2]
      exact promised_none plan

/-- A caller who waits for the end of a watch over one of the two strategies is told what it was
promised if and only if the run did not break on the way, whatever the service answers and whenever
the watch is aborted. -/
theorem promised_iff_not_brokenOff {capacity : Int} {stream : Stream (Event τ)} {now : τ}
    {cancellation : Cancellation τ} {stopped : Bool} {actions : List (Action τ)} {w : World τ ω}
    {reply : Stream.Reply (Event τ)} (hstrategy : Eks.IsStrategy plan.strategy)
    (hstream : Stream.create capacity = .ok stream)
    (hquiet : ∀ action ∈ actions, action.IsQuiet)
    (hact : (World.start now cancellation stopped stream).actAll? plan
      (.ask 0 (.last none) :: actions) = some w)
    (hreply : w.replyTo? 0 = some reply) :
    ∃ newest, reply = .newest newest ∧ (Promised plan newest ↔ ¬BrokenOff plan w newest) := by
  obtain ⟨hclosed, rfl⟩ := newest_of_replyTo? hstream hquiet hact hreply
  have hopen : stream.closed = false := by rw [(Stream.create_eq_ok hstream).1]
  have hask : Tame True (.ask 0 (.last none) : Action τ) := ⟨rfl, fun _ => rfl⟩
  have htame : ∀ action ∈ .ask 0 (.last none) :: actions, Tame True action :=
    List.forall_mem_cons.mpr ⟨hask, fun action ha => (hquiet action ha).tame True⟩
  have hsound : Sound plan True .held w.books := sound_of_actAll? hopen htame hact
  -- the caller is answered only when the stream is closed, which is the end of the run
  rw [hsound.closed_eq] at hclosed
  obtain ⟨how, hhow⟩ := exists_ending?_of_hasShut hclosed
  obtain ⟨instant, hinstant, hover⟩ := hsound.over hhow
  refine ⟨_, rfl, ?_⟩
  constructor
  · intro hpromised hbroken
    obtain ⟨event, hevent, hinterim⟩ := hbroken.interim
    rw [hevent] at hpromised
    exact not_promised_of_interim hinterim hpromised
  · intro hnot
    apply hover.promised
    intro d hd event hevent hinterim
    subst hd
    obtain ⟨line, hline⟩ := exists_sleepingLine hact hhow
    have hbroken := (hover.cause hline).broken hstrategy hinstant
    exact hnot ⟨⟨event, hevent, hinterim⟩, d, hhow, hbroken⟩

/-- A watch of a cluster that is being created and is then described by something that is no
table. -/
def derailed : Plan Int Int where
  config := ⟨"demo", .plain "ACTIVE", [], 0, 1⟩
  strategy := Eks.clusterStrategy
  services
    | 0 => ⟨none, [], .response (.table [("cluster", .table [("status", .text "CREATING")])])⟩
    | _ => ⟨none, [], .response (.table [("cluster", .list [.whole 1])])⟩
  hook := none
  heard := true

/-- The caller is told that the cluster is being created, as if that were how the watch ended. -/
theorem brokenOff_of_derailed :
    ∃ (w : World Int Int) (newest : Option (Event Int)),
      Stream.create 10 = .ok (⟨10, [], false⟩ : Stream (Event Int)) ∧
      (World.start 0 ⟨false, none⟩ false ⟨10, [], false⟩).actAll? derailed
        [.ask 0 (.last none), .serve 0, .run, .serve 0, .serve 0, .run, .helper 0, .helper 1,
          .passTime 1, .run, .helper 0, .helper 0, .run, .serve 0] = some w ∧
      w.replyTo? 0 = some (.newest newest) ∧ ¬Promised derailed newest ∧
      BrokenOff derailed w newest := by
  have hstream : Stream.create 10 = .ok (⟨10, [], false⟩ : Stream (Event Int)) := rfl
  obtain ⟨w, event, hact, hreply, hinterim⟩ : ∃ (w : World Int Int) (event : Event Int),
      (World.start 0 ⟨false, none⟩ false ⟨10, [], false⟩).actAll? derailed
        [.ask 0 (.last none), .serve 0, .run, .serve 0, .serve 0, .run, .helper 0, .helper 1,
          .passTime 1, .run, .helper 0, .helper 0, .run, .serve 0] = some w ∧
      w.replyTo? 0 = some (.newest (some event)) ∧ IsInterim event :=
    ⟨_, _, rfl, rfl, trivial⟩
  have hstrategy : Eks.IsStrategy derailed.strategy := .cluster
  obtain ⟨newest, hnewest, hiff⟩ :=
    promised_iff_not_brokenOff hstrategy hstream (by simp [Action.IsQuiet]) hact hreply
  cases hnewest
  have hnot : ¬Promised derailed (some event) := not_promised_of_interim hinterim
  exact ⟨w, some event, hstream, hact, hreply, hnot, not_not.mp (mt hiff.mpr hnot)⟩

end Vigil.Watch
