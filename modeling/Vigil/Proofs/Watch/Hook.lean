import Vigil.Proofs.Watch.Echo
import Vigil.Proofs.Watch.Likeness
import Vigil.Proofs.Watch.Punctual

/-!
# Hooks listen and do not interfere

The hook of a watch is told of every observation that the stream accepted, once it has accepted it,
and of nothing else.  A hook that fails is put down in the log.  So a watch whose hook gives no
signals goes on as it would without a hook, as long as it can put down what it has to: a failure
that somebody would hear of at an instant that no calendar shows ends the watch.
-/

namespace Vigil.Watch

open Vigil.Number (Amount)
open Vigil.Stream.Traffic (OneSender)

variable {τ ω : Type}

/-! ### Looking away from the hook -/

/-- Whoever looks through this lens sees everything but the log and the calls of the hook. -/
def deaf : Lens τ ω where
  blur := id
  notice
    | .noted _ => none
    | .hookCalled _ => none
    | deed => some deed
  kind_blur _ := rfl
  notice_query {deed _} := by cases deed <;> simp
  notice_noted _ := rfl

/-- What a run did, apart from what it logged and told its hook. -/
def World.deeds (w : World τ ω) : List (τ × Deed τ ω) := deaf.notices w.journal

theorem Run.map_id (run : Run τ) : run.map id = run := by
  obtain ⟨phase, killed, started, queries, sends, pauses, graceDue⟩ := run
  cases phase <;> rfl

/-- Two watches that only their hooks and their logs tell apart. -/
structure Undisturbed (w w' : World τ ω) : Prop where
  /-- The clock shows the same, the same signals were given, the same events and parties are on the
  stream, and the run is at the same place. -/
  state : w' = { w with journal := w'.journal }
  accepted : w.traffic.accepted = w'.traffic.accepted
  deeds : w.deeds = w'.deeds
  queryTimes : w.queryTimes = w'.queryTimes
  ending : w.ending? = w'.ending?

theorem World.Alike.undisturbed {w w' : World τ ω} (h : World.Alike deaf w w') :
    Undisturbed w w' := by
  have htraffic : w.traffic = w'.traffic := by
    calc
      w.traffic = w.traffic.map id := w.traffic.map_id.symm
      _ = w'.traffic.map id := h.traffic
      _ = w'.traffic := w'.traffic.map_id
  have hrun : w.run = w'.run := by
    calc
      w.run = w.run.map id := w.run.map_id.symm
      _ = w'.run.map id := h.run
      _ = w'.run := w'.run.map_id
  constructor
  · simp only [h.now, h.cancellation, h.stopped, htraffic, hrun, h.helpers, h.clients]
  · rw [htraffic]
  · exact h.journal
  · exact h.queryTimes
  · exact h.ending?

/-- A hook that gives no signals makes no difference to whoever looks away from it. -/
theorem alike_hooked_none [Clock τ] (plan : Plan τ ω) {hook : Option (Snapshot τ → Reaction)}
    (hquiet : ∀ f ∈ hook, ∀ snapshot, (f snapshot).signals = []) :
    Plan.Alike deaf (plan.hooked hook) (plan.hooked none) where
  config := rfl
  heard := rfl
  opensClient := rfl
  duration _ := rfl
  triggers _ := rfl
  answered _ := rfl
  conclusion _ _ := rfl
  called _ := by
    cases hook with
    | none => rfl
    | some f => rfl
  signals {snapshot _} _ := by
    cases hook with
    | none => rfl
    | some f => exact hquiet f rfl snapshot

section Complaints

variable [Clock τ] [Wait ω] [Spans ω τ] {plan : Plan τ ω} {w : World τ ω}

/-- Whenever the hook fails in the course of some turns, a record can be made of it. -/
def Vented (plan : Plan τ ω) (w : World τ ω) (turns : List (Turn τ)) : Prop :=
  ∀ first turn last middle, turns = first ++ turn :: last →
    w.takeAll? plan first = some middle → turn.action = .run →
      ∀ hook ∈ turn.hook, ∀ snapshot f, middle.Calls snapshot → hook snapshot = .fail f →
        middle.CanRecord plan

theorem Vented.later {turn : Turn τ} {turns : List (Turn τ)} (h : Vented plan w (turn :: turns))
    {middle : World τ ω} (hact : w.act? (plan.hooked turn.hook) turn.action = some middle) :
    Vented plan middle turns := by
  rintro first next last middle' rfl htake
  refine h (turn :: first) next last middle' rfl ?_
  rw [World.takeAll?, hact]
  exact htake

omit [Clock τ] [Wait ω] [Spans ω τ] in
theorem complaints_eq_nil {hook : Option (Snapshot τ → Reaction)} {snapshot : Snapshot τ}
    (hquiet : ∀ f ∈ hook, ∀ failure, f snapshot ≠ .fail failure) :
    World.complaints (plan.hooked hook) snapshot = [] := by
  cases hook with
  | none => rfl
  | some f =>
      simp only [World.complaints, Plan.hooked]
      cases hreaction : f snapshot with
      | fail failure => exact absurd hreaction (hquiet f rfl failure)
      | _ => rfl

theorem Vented.sameVoice {turn : Turn τ} {turns : List (Turn τ)}
    (h : Vented plan w (turn :: turns)) (hrun : turn.action = .run) :
    w.SameVoice deaf (plan.hooked turn.hook) (plan.hooked none) := by
  refine or_iff_not_imp_left.mpr fun hundated s s' hcalls _ => ?_
  have hquiet : World.complaints (plan.hooked turn.hook) s = [] :=
    complaints_eq_nil fun hook hhook failure hfail =>
      hundated (h [] turn turns w rfl rfl hrun hook hhook s failure hcalls hfail)
  exact iff_of_true hquiet rfl

/-- Hooks that give no signals and whose failures can be logged make no difference. -/
theorem Vented.abreast {turns : List (Turn τ)} (h : Vented plan w turns)
    (hquiet : ∀ turn ∈ turns, ∀ hook ∈ turn.hook, ∀ snapshot, (hook snapshot).signals = []) :
    Abreast deaf plan (plan.hooked none) w turns
      ((turns.map Turn.action).map fun action => ⟨action, (plan.hooked none).hook⟩) := by
  induction turns generalizing w with
  | nil => exact .nil w
  | cons turn turns ih =>
      obtain ⟨hfirst, hrest⟩ := List.forall_mem_cons.mp hquiet
      exact .cons rfl (alike_hooked_none plan hfirst) h.sameVoice fun middle hact =>
        ih (h.later hact) hrest

end Complaints

/-! ### What a hook hears -/

/-- What the hook was told in the course of some turns, compared with what the stream accepted. -/
structure Hears [Clock τ] [Wait ω] [Spans ω τ] (plan : Plan τ ω) (before : World τ ω)
    (turns : List (Turn τ)) (w : World τ ω) : Prop where
  /-- The hook is told of the accepted observations in their order, none of them twice, and it never
  misses more than the last one. -/
  always : ∃ pending : List (Snapshot τ), pending.length ≤ 1 ∧
    (before.saidIn plan turns).filterMap Event.observation? = w.told ++ pending
  /-- Once everybody is settled it misses none. -/
  settled : w.isSettled = true →
    w.told = (before.saidIn plan turns).filterMap Event.observation?
  /-- Unless consumers put something on it, the stream accepted nothing else. -/
  accepted : (∀ turn ∈ turns, turn.action.OffersNothing) →
    w.traffic.accepted = before.saidIn plan turns

variable [Clock τ] [Wait ω] [Spans ω τ] {plan : Plan τ ω}

theorem hears_of_start {now : τ} {cancellation : Cancellation τ} {stopped : Bool}
    {stream : Stream (Event τ)} {turns : List (Turn τ)} {w : World τ ω}
    (hhooks : ∀ turn ∈ turns, turn.hook.isSome = true)
    (htake : (World.start now cancellation stopped stream).takeAll? plan turns = some w) :
    Hears plan (World.start now cancellation stopped stream) turns w := by
  have hposting : Posting plan (.held : Point ω)
      (World.start now cancellation stopped stream : World τ ω).books :=
    ⟨fun _ _ => rfl, rfl, rfl⟩
  have hstart : EchoAt [] (.held : Point ω)
      (World.start now cancellation stopped stream : World τ ω) := rfl
  have hecho := hstart.takeAll hposting hhooks htake
  rw [EchoAt, List.nil_append, World.untoldAt] at hecho
  constructor
  · exact ⟨w.untold, w.untold_length_le, hecho⟩
  · intro hsettled
    rw [hecho, World.untold_of_settled hsettled, List.append_nil]
  · intro hconsumers
    have hsender : OneSender False (World.start now cancellation stopped stream :
        World τ ω).traffic := by
      intro party hparty
      cases hparty
    exact World.accepted_takeAll hsender hconsumers htake

/-- The hook of a watch is told of each accepted observation, whatever it does and remembers; and if
it gives no signals and each of its failures can be logged, everything else is as it would be
without a hook. -/
theorem hook_listens_only (plan : Plan τ ω) (now : τ) (cancellation : Cancellation τ)
    (stopped : Bool) (stream : Stream (Event τ)) (turns : List (Turn τ)) :
    ((∀ turn ∈ turns, turn.hook.isSome = true) → ∀ w : World τ ω,
      (World.start now cancellation stopped stream).takeAll? plan turns = some w →
        Hears plan (World.start now cancellation stopped stream) turns w) ∧
    ((∀ turn ∈ turns, ∀ hook ∈ turn.hook, ∀ snapshot, (hook snapshot).signals = []) →
      Vented plan (World.start now cancellation stopped stream) turns → Option.Rel Undisturbed
        ((World.start now cancellation stopped stream).takeAll? plan turns)
        ((World.start now cancellation stopped stream).actAll? (plan.hooked none)
          (turns.map Turn.action))) := by
  refine ⟨fun hhooks w htake => hears_of_start hhooks htake, fun hquiet hvented => ?_⟩
  have hrel := (World.Alike.refl (World.start now cancellation stopped stream)).takeAll?
    (hvented.abreast hquiet)
  rw [World.takeAll?_of_constant] at hrel
  exact rel_mono World.Alike.undisturbed hrel

/-- A hook that fails from its second call on, beside a slow reader. -/
def grumbling : List (Turn Int) :=
  (slowReader.take 20).map (fun action => ⟨action, some fun _ => .record⟩) ++
    (slowReader.drop 20).map (fun action => ⟨action, some fun _ => .fail (.foreign "KeyError" [])⟩)

/-- It is told of two observations, one of them long after it was offered, and nobody notices that
it fails. -/
theorem hook_listens_only_of_grumbling :
    ∃ w : World Int Int,
      (World.start 0 ⟨false, none⟩ false ⟨1, [], false⟩).takeAll? warmingUp grumbling = some w ∧
      w.hookCalls.map Prod.fst = [4, 11] ∧ w.queryTimes = [0, 2, 11, 13] ∧
      Hears warmingUp (World.start 0 ⟨false, none⟩ false ⟨1, [], false⟩) grumbling w ∧
      Option.Rel Undisturbed
        ((World.start 0 ⟨false, none⟩ false ⟨1, [], false⟩).takeAll? warmingUp grumbling)
        ((World.start 0 ⟨false, none⟩ false ⟨1, [], false⟩).actAll? (warmingUp.hooked none)
          (grumbling.map Turn.action)) := by
  obtain ⟨w, htake, hcalls, hqueries⟩ : ∃ w : World Int Int,
      (World.start 0 ⟨false, none⟩ false ⟨1, [], false⟩).takeAll? warmingUp grumbling = some w ∧
        w.hookCalls.map Prod.fst = [4, 11] ∧ w.queryTimes = [0, 2, 11, 13] := ⟨_, rfl, rfl, rfl⟩
  have hhook : ∀ turn ∈ grumbling, ∃ reaction : Reaction,
      turn.hook = some (fun _ => reaction) ∧ reaction.signals = [] := by
    intro turn hturn
    rw [grumbling, List.mem_append, List.mem_map, List.mem_map] at hturn
    rcases hturn with ⟨_, _, rfl⟩ | ⟨_, _, rfl⟩ <;> exact ⟨_, rfl, rfl⟩
  obtain ⟨hhears, hundisturbed⟩ :=
    hook_listens_only warmingUp 0 ⟨false, none⟩ false ⟨1, [], false⟩ grumbling
  have hvented : Vented warmingUp (World.start 0 ⟨false, none⟩ false ⟨1, [], false⟩ :
      World Int Int) grumbling := fun _ _ _ _ _ _ _ _ _ _ _ _ _ => rfl
  refine ⟨w, htake, hcalls, hqueries, hhears (fun turn hturn => ?_) w htake,
    hundisturbed (fun turn hturn hook hhas snapshot => ?_) hvented⟩
  · obtain ⟨reaction, hsome, _⟩ := hhook turn hturn
    rw [hsome, Option.isSome_some]
  · obtain ⟨reaction, hsome, hquiet⟩ := hhook turn hturn
    obtain rfl := Option.some.inj (hsome.symm.trans hhas)
    exact hquiet

/-- A watch of one second over a service that shows the same status for ever. -/
def unchanging : Plan Float Amount where
  config := ⟨"demo", .plain "up", [], .whole 0, .whole 1⟩
  strategy := recovering.strategy
  services _ := ⟨none, [], .response (.text "starting")⟩
  hook := none
  heard := true

/-- Without a hook this watch asks a third time.  With a hook that always fails and does nothing
else it breaks when the second observation is accepted, since nobody can log the failure. -/
theorem failing_hook_cuts_short :
    WaitConfig.make (some (.plain "demo")) (some (.plain "up")) [] (some (.whole 0))
      (some (.whole 1)) = .ok unchanging.config ∧
    (∀ f : Failure, (Reaction.fail f).signals = []) ∧
    ∃ w w' w'' : World Float Amount,
      (World.start Clock.zero ⟨false, none⟩ false ⟨1, [], false⟩).takeAll? unchanging
        (takenLate.map fun action => ⟨action, some fun _ => .fail (.foreign "KeyError" [])⟩) =
          some w ∧
      (World.start Clock.zero ⟨false, none⟩ false ⟨1, [], false⟩).actAll?
        (unchanging.hooked none) takenLate = some w' ∧
      w'.actAll? (unchanging.hooked none) [.helper 0, .helper 1, .passTime (1e12 + 1), .run,
        .helper 0, .helper 0, .run] = some w'' ∧
      w.ending? = some (.broken .tooLarge) ∧ w.queryTimes.length = 2 ∧
      w'.ending? = none ∧ w''.queryTimes.length = 3 := by
  have hsecond : Wait.isNegative (Amount.whole 1) = false := by decide +kernel
  obtain ⟨w, htake, hended, hqueries⟩ : ∃ w : World Float Amount,
      (World.start Clock.zero ⟨false, none⟩ false ⟨1, [], false⟩).takeAll? unchanging
        (takenLate.map fun action => ⟨action, some fun _ => .fail (.foreign "KeyError" [])⟩) =
          some w ∧
      w.ending? = some (.broken .tooLarge) ∧ w.queryTimes.length = 2 := by
    decide +kernel
  obtain ⟨w', hact, hgoing, w'', hact', hqueries'⟩ : ∃ w' : World Float Amount,
      (World.start Clock.zero ⟨false, none⟩ false ⟨1, [], false⟩).actAll?
        (unchanging.hooked none) takenLate = some w' ∧
      w'.ending? = none ∧
      ∃ w'', w'.actAll? (unchanging.hooked none) [.helper 0, .helper 1, .passTime (1e12 + 1), .run,
        .helper 0, .helper 0, .run] = some w'' ∧ w''.queryTimes.length = 3 := by
    decide +kernel
  exact ⟨make_of_not_negative hsecond, fun _ => rfl, w, w', w'', htake, hact, hact', hended,
    hqueries, hgoing, hqueries'⟩

end Vigil.Watch
