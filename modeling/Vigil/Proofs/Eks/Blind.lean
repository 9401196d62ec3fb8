import Vigil.Eks.Subject
import Vigil.Proofs.Eks.Garbled
import Vigil.Proofs.Value.Spelling
import Vigil.Proofs.Watch.Journal
import Vigil.Proofs.Watch.Likeness
import Vigil.Proofs.Watch.Minutes

/-!
# Only the status matters

A payload goes into snapshots, log lines and failures, and a hook gets to see it.  None of this has
an influence on what a watch does: two watches of a cluster or an update look alike without their
payloads if the statuses in their answers read the same.  The one exception is a part of a payload
that a log line shows and that cannot be written: the watch breaks on it.
-/

namespace Vigil

variable {τ : Type}

/-! ### Without the payload -/

def Snapshot.withoutPayload (s : Snapshot τ) : Snapshot τ := { s with payload := .null }

/-- A failure without the response that it quotes. -/
def Failure.withoutResponse : Failure → Failure
  | .emptyResponse resource _ => .emptyResponse resource .null
  | f => f

def Event.withoutPayload : Event τ → Event τ
  | .progress s => .progress s.withoutPayload
  | .desired s => .desired s.withoutPayload
  | .failed s f => .failed s.withoutPayload f
  | .emptyResponse f => .emptyResponse f.withoutResponse
  | event => event

namespace Event

variable (event : Event τ)

@[simp]
theorem kind_withoutPayload : event.withoutPayload.kind = event.kind := by
  cases event <;> rfl

@[simp]
theorem status_withoutPayload : event.withoutPayload.snapshot?.map Snapshot.status =
    event.snapshot?.map Snapshot.status := by
  cases event <;> rfl

@[simp]
theorem failure_withoutPayload : event.withoutPayload.failure?.map Failure.withoutResponse =
    event.failure?.map Failure.withoutResponse := by
  cases event with
  | emptyResponse f => cases f <;> rfl
  | _ => rfl

end Event

end Vigil

namespace Vigil.Eks

open Log (Note)
open Vigil.Number (pow10)
open Vigil.Stream (Traffic)
open Vigil.Watch

variable {τ ω : Type}

def withoutPayload : Result → Result
  | .payload _ => .payload .null
  | result => result

/-- Whoever looks through this lens sees everything but the log and the payloads. -/
def blind : Lens τ ω where
  blur := Event.withoutPayload
  notice
    | .noted _ => none
    | .hookCalled s => some (.hookCalled s.withoutPayload)
    | .answered number result => some (.answered number (withoutPayload result))
    | deed => some deed
  kind_blur := Event.kind_withoutPayload
  notice_query {deed _} := by cases deed <;> simp
  notice_noted _ := rfl

/-- But for the payloads, the calls of a hook can be read off what the lens shows. -/
theorem hookCalls_blind (w : World τ ω) :
    (w.hookCalls.map fun call => (call.1, call.2.withoutPayload)) =
      (blind.notices w.journal).filterMap fun entry =>
        entry.2.told?.map fun s => (entry.1, s) := by
  rw [World.hookCalls, Lens.notices, List.map_filterMap, List.filterMap_filterMap]
  congr 1
  funext entry
  obtain ⟨instant, deed⟩ := entry
  cases deed <;> rfl

/-! ### Answers with the same status -/

/-- Two results are the same failure, or both are empty, or both are tables whose statuses read the
same and which the strategy can show, or can show neither. -/
inductive SameStatus (strategy : Strategy) : Result → Result → Prop
  | failure (f : Failure) : SameStatus strategy (.failure f) (.failure f)
  | empty {v v' : Value} (blank : v.truthy = false) (blank' : v'.truthy = false) :
      SameStatus strategy (.payload v) (.payload v')
  | table {fields fields' : Fields} (filled : (Value.table fields).truthy = true)
      (filled' : (Value.table fields').truthy = true)
      (status : textAt (.table fields) "status" = textAt (.table fields') "status")
      (shown : Unshowable strategy fields ↔ Unshowable strategy fields') :
      SameStatus strategy (.payload (.table fields)) (.payload (.table fields'))
  /-- Both queries cancelled the task of the run. -/
  | cancelled : SameStatus strategy .cancelled .cancelled

theorem SameStatus.withoutPayload_eq {strategy : Strategy} {result result' : Result}
    (h : SameStatus strategy result result') : withoutPayload result = withoutPayload result' := by
  cases h <;> rfl

/-- Two watches of the same cluster or update whose queries take as long and whose answers have the
same statuses. -/
structure SameStatuses (plan plan' : Plan τ ω) : Prop where
  config : plan.config = plan'.config
  strategy : plan.strategy = plan'.strategy
  known : IsStrategy plan.strategy
  heard : plan.heard = plan'.heard
  duration (number : Nat) : (plan.services number).duration = (plan'.services number).duration
  triggers (number : Nat) : (plan.services number).triggers = (plan'.services number).triggers
  results (number : Nat) : SameStatus plan.strategy (plan.result number) (plan'.result number)

/-- The hook gives the same signals about observations that differ in their payloads only, and fails
about both or about neither. -/
def LooksAway (hook : Snapshot τ → Reaction) : Prop :=
  ∀ s s' : Snapshot τ, s.withoutPayload = s'.withoutPayload →
    (hook s).signals = (hook s').signals ∧
      (hook s).failure?.isSome = (hook s').failure?.isSome

theorem not_unshowable {strategy : Strategy} (hknown : IsStrategy strategy) {fields : Fields}
    {status : Value} {parts : List (String × String)}
    (hstatus : strategy.statusOf (.table fields) = .ok status)
    (hlog : strategy.logFields (.table fields) = .ok parts) : ¬ Unshowable strategy fields := by
  simp [hknown.unshowable_iff, hstatus, hlog]

theorem IsStrategy.eq_unwritable {strategy : Strategy} (h : IsStrategy strategy) {fields : Fields}
    {d : Defect} (hlog : strategy.logFields (.table fields) = .error d) : d = .unwritable := by
  obtain ⟨part, hshown⟩ : ∃ part : Value, part.shown = .error d := by
    cases h with
    | cluster => exact (cluster_logFields_eq_error.mp hlog).imp fun _ hpart => hpart.2
    | update cluster => exact (update_logFields_eq_error.mp hlog).imp fun _ hpart => hpart.2
  exact (Value.shown_eq_error_iff.mp hshown).1

/-- A log line shows both tables or breaks on both, if the status of both can be written. -/
theorem logFields_alike {strategy : Strategy} (hknown : IsStrategy strategy)
    {fields fields' : Fields} {status status' : Value}
    (hstatus : strategy.statusOf (.table fields) = .ok status)
    (hstatus' : strategy.statusOf (.table fields') = .ok status')
    (hshown : Unshowable strategy fields ↔ Unshowable strategy fields') :
    (strategy.logFields (.table fields)).map (fun _ => ()) =
      (strategy.logFields (.table fields')).map fun _ => () := by
  simp only [hknown.unshowable_iff, hstatus, hstatus', reduceCtorEq, false_or] at hshown
  cases hlog : strategy.logFields (.table fields) with
  | ok parts =>
      cases hlog' : strategy.logFields (.table fields') with
      | ok parts' => rfl
      | error d => simp [hlog, hlog'] at hshown
  | error d =>
      cases hlog' : strategy.logFields (.table fields') with
      | ok parts' => simp [hlog, hlog'] at hshown
      | error d' => rw [hknown.eq_unwritable hlog, hknown.eq_unwritable hlog']

section Conclusions

variable {config : WaitConfig ω} {strategy : Strategy}

/-- Two outcomes that cannot be told apart without payloads: there is something to log in both or in
neither, and what follows is the same. -/
structure OutcomesAlike (outcome outcome' : List Note × Except Defect (Event τ)) : Prop where
  notes : outcome.1 = [] ↔ outcome'.1 = []
  seen : outcome.2.map Event.withoutPayload = outcome'.2.map Event.withoutPayload

/-- What follows from an observation does not depend on its payload. -/
theorem observeStatus_blind (line line' : Note) (shown : String) {s s' : Snapshot τ}
    (hsame : s.withoutPayload = s'.withoutPayload) :
    OutcomesAlike (observeStatus config strategy line shown s)
      (observeStatus config strategy line' shown s') := by
  have hstatus : s.status = s'.status := (congrArg Snapshot.status hsame :)
  have hseen (event : Snapshot τ → Event τ) :
      (Except.ok (event s.withoutPayload) : Except Defect (Event τ)) =
        .ok (event s'.withoutPayload) := congrArg (fun s => Except.ok (event s)) hsame
  simp only [observeStatus, hstatus]
  split_ifs
  · exact ⟨by simp, hseen .desired⟩
  · cases isFailure config s'.status with
    | error d => exact ⟨by simp, rfl⟩
    | ok fatal =>
        cases fatal with
        | true => exact ⟨by simp, hseen (.failed · _)⟩
        | false => exact ⟨by simp, hseen .progress⟩

variable [Clock τ]

/-- What follows from a payload depends on its status only, and on whether it can be shown. -/
theorem observePayload_blind (config : WaitConfig ω) (hknown : IsStrategy strategy) (m : Moment τ)
    {v v' : Value} (h : SameStatus strategy (.payload v) (.payload v')) :
    OutcomesAlike (observePayload config strategy m v) (observePayload config strategy m v') := by
  cases h with
  | empty blank blank' =>
      simp only [observePayload, blank, blank']
      exact ⟨by simp, rfl⟩
  | @table fields fields' filled filled' same shown =>
      simp only [observePayload, filled, filled', hknown.statusOf_eq, statusOf, ← same]
      cases hstatus : textAt (.table fields) "status" with
      | error d => exact ⟨Iff.rfl, rfl⟩
      | ok status =>
          have hread : strategy.statusOf (.table fields) = .ok (.text status) := by
            rw [hknown.statusOf_eq, statusOf, hstatus]
            rfl
          have hread' : strategy.statusOf (.table fields') = .ok (.text status) := by
            rw [hknown.statusOf_eq, statusOf, ← same, hstatus]
            rfl
          have hlogged := logFields_alike hknown hread hread' shown
          revert hlogged
          cases hstamp : Clock.stamp? m.now with
          | none => exact fun _ => ⟨Iff.rfl, rfl⟩
          | some fetchedAt =>
              cases strategy.logFields (.table fields) with
              | error d =>
                  cases strategy.logFields (.table fields') with
                  | error d' => exact fun hlogged => by cases hlogged; exact ⟨Iff.rfl, rfl⟩
                  | ok parts' => exact fun hlogged => by cases hlogged
              | ok parts =>
                  cases strategy.logFields (.table fields') with
                  | error d' => exact fun hlogged => by cases hlogged
                  | ok parts' => exact fun _ => observeStatus_blind _ _ status rfl

theorem settle_blind {plan plan' : Plan τ ω} (hheard : plan.heard = plan'.heard) (instant : τ)
    {outcome outcome' : List Note × Except Defect (Event τ)} (h : OutcomesAlike outcome outcome') :
    (plan.settle instant outcome).map Event.withoutPayload =
      (plan'.settle instant outcome').map Event.withoutPayload := by
  simp only [Plan.settle, h.notes, hheard]
  split_ifs
  · exact h.seen
  · rfl

theorem conclusion_blind {plan plan' : Plan τ ω} (h : SameStatuses plan plan') (m : Moment τ)
    (number : Nat) : (plan.conclusion m number).map (Except.map Event.withoutPayload) =
      (plan'.conclusion m number).map (Except.map Event.withoutPayload) := by
  have hresults := h.results number
  rw [Plan.conclusion, Plan.conclusion, ← h.config, ← h.strategy]
  revert hresults
  cases plan.result number with
  | payload v =>
      cases plan'.result number with
      | payload v' =>
          exact fun hresults => congrArg some
            (settle_blind h.heard m.now (observePayload_blind plan.config h.known m hresults))
      | _ => exact fun hresults => by cases hresults
  | failure f =>
      cases plan'.result number with
      | failure f' =>
          rintro ⟨⟩
          exact congrArg some (settle_blind h.heard m.now ⟨Iff.rfl, rfl⟩)
      | _ => exact fun hresults => by cases hresults
  | cancelled =>
      cases plan'.result number with
      | cancelled => exact fun _ => rfl
      | _ => exact fun hresults => by cases hresults

end Conclusions

section Hooks

variable [Clock τ] {plan plan' : Plan τ ω} {hook : Option (Snapshot τ → Reaction)}

/-- Nobody who is blind to payloads can tell the two watches apart. -/
theorem alike_of_sameStatuses (h : SameStatuses plan plan') (hhook : ∀ f ∈ hook, LooksAway f) :
    Plan.Alike blind (plan.hooked hook) (plan'.hooked hook) where
  config := h.config
  heard := h.heard
  opensClient := congrArg Strategy.opensClient h.strategy
  duration := h.duration
  triggers := h.triggers
  answered number :=
    congrArg (fun result => some (Deed.answered number result)) (h.results number).withoutPayload_eq
  conclusion m number := (conclusion_blind h m number :)
  called {s s'} hsame := by
    have hs : s.withoutPayload = s'.withoutPayload := Event.progress.inj hsame
    cases hook with
    | none => rfl
    | some f => exact congrArg (fun s => [Deed.hookCalled s]) hs
  signals {s s'} hsame := by
    cases hook with
    | none => rfl
    | some f => exact (hhook f rfl s s' (Event.progress.inj hsame)).1

omit [Clock τ] in
/-- A hook that looks away complains of both observations or of neither. -/
theorem complaints_blind (hhook : ∀ f ∈ hook, LooksAway f) {s s' : Snapshot τ}
    (hsame : s.withoutPayload = s'.withoutPayload) :
    World.complaints (plan.hooked hook) s = [] ↔ World.complaints (plan'.hooked hook) s' = [] := by
  cases hook with
  | none => exact Iff.rfl
  | some f =>
      have hfails := (hhook f rfl s s' hsame).2
      revert hfails
      simp only [World.complaints, Plan.hooked]
      cases f s <;> cases f s' <;> simp [Reaction.failure?]

/-- Watches of the same statuses go abreast, whatever happens around both. -/
theorem abreast_of_sameStatuses [Wait ω] [Spans ω τ] (h : SameStatuses plan plan')
    {turns : List (Turn τ)} (hhooks : ∀ turn ∈ turns, ∀ hook ∈ turn.hook, LooksAway hook)
    (w : World τ ω) : Abreast blind plan plan' w turns turns := by
  induction turns generalizing w with
  | nil => exact .nil w
  | cons turn turns ih =>
      obtain ⟨hfirst, hrest⟩ := List.forall_mem_cons.mp hhooks
      exact .cons rfl (alike_of_sameStatuses h hfirst)
        (fun _ => .inr fun s s' _ hsame => complaints_blind hfirst (Event.progress.inj hsame))
        fun middle _ => ih hrest middle

end Hooks

/-! ### Two watches -/

/-- What cannot be told apart in two watches of the same statuses. -/
structure Indistinct (w w' : World τ ω) : Prop where
  kinds : w.traffic.accepted.map Event.kind = w'.traffic.accepted.map Event.kind
  statuses : w.traffic.accepted.map (fun event => event.snapshot?.map Snapshot.status) =
    w'.traffic.accepted.map fun event => event.snapshot?.map Snapshot.status
  /-- The failures are the same, but for the responses that they quote. -/
  failures : w.traffic.accepted.map (fun event => event.failure?.map Failure.withoutResponse) =
    w'.traffic.accepted.map fun event => event.failure?.map Failure.withoutResponse
  queryTimes : w.queryTimes = w'.queryTimes
  hookCalls : w.hookCalls.length = w'.hookCalls.length
  /-- The hook is told the same at the same instants, but for the payloads. -/
  told : (w.hookCalls.map fun call => (call.1, call.2.withoutPayload)) =
    w'.hookCalls.map fun call => (call.1, call.2.withoutPayload)
  ending : w.ending? = w'.ending?
  /-- Consumers and everybody else find the same, but for the payloads. -/
  alike : World.Alike blind w w'

theorem indistinct_of_alike {w w' : World τ ω} (h : World.Alike blind w w') : Indistinct w w' := by
  have haccepted : w.traffic.accepted.map Event.withoutPayload =
      w'.traffic.accepted.map Event.withoutPayload := congrArg Traffic.accepted h.traffic
  -- what an event without its payload still shows
  have hview {α : Type} (view : Event τ → α)
      (hview : ∀ event : Event τ, view event.withoutPayload = view event) :
      w.traffic.accepted.map view = w'.traffic.accepted.map view := by
    have hsame := congrArg (List.map view) haccepted
    simpa only [List.map_map, Function.comp_def, hview] using hsame
  have htold : (w.hookCalls.map fun call => (call.1, call.2.withoutPayload)) =
      w'.hookCalls.map fun call => (call.1, call.2.withoutPayload) := by
    rw [hookCalls_blind, hookCalls_blind, h.journal]
  constructor
  · exact hview _ Event.kind_withoutPayload
  · exact hview _ Event.status_withoutPayload
  · exact hview _ Event.failure_withoutPayload
  · exact h.queryTimes
  · simpa using congrArg List.length htold
  · exact htold
  · exact h.ending?
  · exact h

/-- Two watches of a cluster or an update whose answers have the same statuses do the same, as long
as the same happens around them and no hook looks at a payload. -/
theorem only_status_matters [Clock τ] [Wait ω] [Spans ω τ] {plan plan' : Plan τ ω}
    (hsame : SameStatuses plan plan') (now : τ) (cancellation : Cancellation τ) (stopped : Bool)
    (stream : Stream (Event τ)) {turns : List (Turn τ)}
    (hhooks : ∀ turn ∈ turns, ∀ hook ∈ turn.hook, LooksAway hook) :
    Option.Rel Indistinct
      ((World.start now cancellation stopped stream).takeAll? plan turns)
      ((World.start now cancellation stopped stream).takeAll? plan' turns) := by
  exact rel_mono indistinct_of_alike
    ((World.Alike.refl _).takeAll? (abreast_of_sameStatuses hsame hhooks _))

/-- A cluster that is created, is not shown for a moment, and is active. -/
def terse : Nat → Service Int
  | 0 => ⟨some 3, [], .response (.table [("cluster", .table [("status", .text "CREATING")])])⟩
  | 1 => ⟨none, [], .response (.table [])⟩
  | _ => ⟨none, [], .response (.table [("cluster", .table [("status", .text "ACTIVE")])])⟩

/-- The same cluster as another service would show it. -/
def wordy : Nat → Service Int
  | 0 => ⟨some 3, [], .response (.table [("cluster",
      .table [("name", .text "demo"), ("version", .text "1.30"), ("status", .text "CREATING")])])⟩
  | 1 => ⟨none, [], .response (.table [("cluster", .list [])])⟩
  | _ => ⟨none, [], .response (.table [("cluster",
      .table [("status", .word (.cluster .active)), ("tags", .list [.text "blue"])])])⟩

/-- A watch until the cluster is active, over either service. -/
def untilActive (services : Nat → Service Int) : Plan Int Int where
  config := ⟨"demo", .word (.cluster .active), clusterFailures, 0, 1⟩
  strategy := clusterStrategy
  services := services
  hook := none
  heard := true

/-- A hook that stops the watch of a cluster that is being updated. -/
def stopIfUpdating (snapshot : Snapshot Int) : Reaction :=
  if snapshot.status.asText? = some "UPDATING" then .trigger .stop else .record

/-- The first query takes three seconds, and two pauses of one second follow. -/
def activeByFive : List (Turn Int) :=
  ([.run, .passTime 3, .run, .serve 0, .run, .helper 0, .helper 1, .passTime 4, .run, .helper 0,
    .helper 0, .run, .serve 0, .run, .helper 0, .helper 1, .passTime 5, .run, .helper 0, .helper 0,
    .run, .serve 0, .run] : List (Action Int)).map fun action => ⟨action, some stopIfUpdating⟩

/-- Both services lead to the same three events, and the hook hears of one of them. -/
theorem only_status_matters_of_wordy :
    SameStatuses (untilActive terse) (untilActive wordy) ∧
      ∃ w w' : World Int Int,
        (World.start 0 ⟨false, none⟩ false ⟨10, [], false⟩).takeAll? (untilActive terse)
          activeByFive = some w ∧
        (World.start 0 ⟨false, none⟩ false ⟨10, [], false⟩).takeAll? (untilActive wordy)
          activeByFive = some w' ∧
        w.traffic.accepted.map Event.kind = [.progress, .emptyResponse, .desired] ∧
        w.queryTimes = [0, 4, 5] ∧ w.hookCalls.length = 1 ∧ w.ending? = some .finished ∧
        Indistinct w w' := by
  have hsame : SameStatuses (untilActive terse) (untilActive wordy) := by
    refine ⟨rfl, rfl, .cluster, rfl, ?_, ?_, ?_⟩
    · rintro (_ | _ | _) <;> rfl
    · rintro (_ | _ | _) <;> rfl
    · rintro (_ | _ | _)
      · exact .table rfl rfl rfl (iff_of_false (not_unshowable .cluster rfl rfl)
          (not_unshowable .cluster rfl rfl))
      · exact .empty rfl rfl
      · exact .table rfl rfl rfl (iff_of_false (not_unshowable .cluster rfl rfl)
          (not_unshowable .cluster rfl rfl))
  have hhooks : ∀ turn ∈ activeByFive, ∀ hook ∈ turn.hook, LooksAway hook := by
    intro turn hturn hook hhook s s' hs
    obtain ⟨action, _, rfl⟩ := List.mem_map.mp hturn
    obtain rfl := Option.some.inj hhook
    have hstatus : s.status = s'.status := (congrArg Snapshot.status hs :)
    have hreaction : stopIfUpdating s = stopIfUpdating s' := by
      rw [stopIfUpdating, stopIfUpdating, hstatus]
    exact ⟨congrArg _ hreaction, congrArg _ (congrArg _ hreaction)⟩
  obtain ⟨w, htake, hkinds, hqueries, hcalls, hending⟩ : ∃ w : World Int Int,
      (World.start 0 ⟨false, none⟩ false ⟨10, [], false⟩).takeAll? (untilActive terse)
        activeByFive = some w ∧
      w.traffic.accepted.map Event.kind = [.progress, .emptyResponse, .desired] ∧
      w.queryTimes = [0, 4, 5] ∧ w.hookCalls.length = 1 ∧ w.ending? = some .finished :=
    ⟨_, rfl, rfl, rfl, rfl, rfl⟩
  obtain ⟨w', htake'⟩ : ∃ w' : World Int Int,
      (World.start 0 ⟨false, none⟩ false ⟨10, [], false⟩).takeAll? (untilActive wordy)
        activeByFive = some w' := ⟨_, rfl⟩
  have hrel := only_status_matters hsame 0 ⟨false, none⟩ false ⟨10, [], false⟩ hhooks
  rw [htake, htake'] at hrel
  cases hrel with
  | some hindistinct =>
      exact ⟨hsame, w, w', htake, htake', hkinds, hqueries, hcalls, hending, hindistinct⟩

/-- An active cluster of some version. -/
def versioned (version : Value) : Fields := [("status", .text "ACTIVE"), ("version", version)]

/-- A service that shows an active cluster of some version at once. -/
def showing (version : Value) : Nat → Service Int := fun _ =>
  ⟨none, [], .response (.table [("cluster", .table (versioned version))])⟩

/-- The version of a cluster makes a difference if it is a number of too many digits: the watch
breaks on the line that would show it, where otherwise it ends well. -/
theorem overlong_version_breaks_watch :
    textAt (.table (versioned (.text "1"))) "status" =
        textAt (.table (versioned (.whole (pow10 4300)))) "status" ∧
      ∃ w w' : World Int Int,
        (World.start 0 ⟨false, none⟩ false ⟨10, [], false⟩).actAll?
          (untilActive (showing (.text "1"))) [.run] = some w ∧
        (World.start 0 ⟨false, none⟩ false ⟨10, [], false⟩).actAll?
          (untilActive (showing (.whole (pow10 4300)))) [.run] = some w' ∧
        (w.actAll? (untilActive (showing (.text "1"))) [.serve 0, .run]).map
          (fun w => (w.ending?, w.traffic.accepted.map Event.kind)) =
            some (some .finished, [.desired]) ∧
        w'.ending? = some (.broken .unwritable) ∧ w'.traffic.accepted = [] := by
  obtain ⟨w', hact, hended, hnone⟩ : ∃ w' : World Int Int,
      (World.start 0 ⟨false, none⟩ false ⟨10, [], false⟩).actAll?
        (untilActive (showing (.whole (pow10 4300)))) [.run] = some w' ∧
      w'.ending? = some (.broken .unwritable) ∧ w'.traffic.accepted.length = 0 := by
    decide +kernel
  exact ⟨rfl, _, w', rfl, hact, rfl, hended, List.length_eq_zero_iff.mp hnone⟩

end Vigil.Eks
