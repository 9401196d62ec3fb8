import Vigil.Proofs.Stream.Readers
import Vigil.Proofs.Stream.Wakeup
import Vigil.Proofs.Watch.Calm
import Vigil.Proofs.Watch.Passage
import Vigil.Watch.Schedule

/-!
# A watch does not get stuck

While somebody waits for an event, the run, a helper or a party on the stream can go on, or time can
pass until a timer rings.  And they cannot go on for ever: each query brings the run nearer to the
result that ends the watch, and between two queries there is only so much to do.
-/

namespace Vigil.Watch

open Vigil.Stream (Traffic)
open Vigil.Stream.Traffic (Conserved Watchful)

variable {τ ω : Type}

/-! ### What is left to do -/

/-- How far a phase is from the next query. -/
def Phase.weight : Phase τ → Nat
  | .created => 4
  | .querying _ _ => 10
  | .sending _ _ => 7
  | .sleeping _ _ => 5
  | .tidying _ _ => 4
  | .ended _ => 0

/-- How far a point of the control flow is from the next query. -/
def Point.weight (phase : Phase τ) : Point ω → Nat
  | .held => phase.weight
  | .deciding => 3
  | .asked _ => 11
  | .due _ => 9
  | .answered _ _ => 8
  | .pausing _ => 6

/-- The instants at which a phase ends by itself. -/
def Phase.timers : Phase τ → List τ
  | .querying _ due => [due]
  | .sleeping _ due => [due]
  | _ => []

/-- The helper has not looked yet and is not told to leave. -/
def Helper.isNew (h : Helper τ) : Bool := !h.withdrawn && h.armed.isNone

namespace World

/-- What the run has to do, if the watch ends with a result that has a number. -/
def rank (last : Nat) (point : Point ω) (w : World τ ω) : Nat :=
  9 * (last + 1 - w.queryTimes.length) + point.weight w.run.phase

/-- What the helpers have to do: the new ones are to look once, and all are to leave. -/
def load (w : World τ ω) : Nat := w.helpers.length + w.helpers.countP Helper.isNew

variable [Clock τ]

/-- How many timers are to ring. -/
def ahead (w : World τ ω) : Nat := (w.timers.filter fun due => Clock.lt w.now due).length

/-- What everybody has to do: first the run, then its helpers, then the clock, then the parties on
the stream. -/
def work (last : Nat) (w : World τ ω) : ℕ ×ₗ ℕ ×ₗ ℕ ×ₗ ℕ ×ₗ ℕ ×ₗ ℕ :=
  toLex (w.rank last (.held : Point ω), toLex (w.load, toLex (w.ahead, w.traffic.toil)))

end World

/-! ### Whatever goes on uses it up -/

section Work

variable [Clock τ] [Wait ω] [Spans ω τ] {plan : Plan τ ω} {last : Nat} {w w' : World τ ω}
variable {p p' : Point ω}

omit [Clock τ] [Wait ω] [Spans ω τ] in
theorem World.asked_send (w : World τ ω) (event : Event τ) :
    (w.send event).books.asked = w.books.asked := rfl

/-- Only one move is a query. -/
theorem World.Move.asked_eq (h : World.Move plan w p p' w')
    (hother : ∀ number, p' ≠ .asked number) : w'.queryTimes.length = w.queryTimes.length := by
  change w'.books.asked = w.books.asked
  cases h with
  | ask noReason => exact absurd rfl (hother _)
  | choke cause => simp [World.breakDown, World.books_shut, cause.books]
  | _ =>
      simp [World.withFarewell, World.breakDown, World.books_shut, World.books_shutWith,
        World.books_withAnswer, World.books_withPause, World.books_withBegin, World.books_withStart,
        World.books_withGrace, World.books_record_paused, World.asked_send]

omit [Spans ω τ] in
/-- A run that breaks because it cannot log something was not at its end. -/
theorem World.Choke.weight_pos {d : Defect} (h : World.Choke plan w p w' d) :
    0 < p.weight w.run.phase := by
  cases h with
  | abort _ _ => exact (by decide : 0 < 3)
  | outcome _ _ _ | revoke _ => exact (by decide : 0 < 8)
  | complaint phase _ _ _ | grace phase _ _ _ _ | retract phase _ _ _ _ =>
      rw [phase]
      exact (by decide : 0 < 7)
  | interrupt phase _ _ =>
      rw [phase]
      exact (by decide : 0 < 10)
  | leave phase _ _ _ =>
      rw [phase]
      exact (by decide : 0 < 4)

/-- Every other move brings the run nearer to its next query, or to its end. -/
theorem World.Move.weight_lt (h : World.Move plan w p p' w') (hother : ∀ number, p' ≠ .asked number)
    (hgoing : ¬w.MustEnd) : p'.weight w'.run.phase < p.weight w.run.phase := by
  cases h with
  | ask noReason => exact absurd rfl (hother _)
  | abort reason _ =>
      rw [World.abort?_eq_none.mpr hgoing] at reason
      cases reason
  | start phase _ _ _ | rise phase _ _ =>
      rw [phase]
      exact (by decide : 3 < 4)
  | wait duration => exact (by decide : 10 < 11)
  | atOnce duration => exact (by decide : 9 < 11)
  | inTime phase _ _ =>
      rw [phase]
      exact (by decide : 9 < 10)
  | answer => exact (by decide : 8 < 9)
  | publish outcome _ => exact (by decide : 7 < 8)
  | grace phase _ _ _ _ | progress phase _ _ _ | retry phase _ _ _ =>
      rw [phase]
      exact (by decide : 6 < 7)
  | sleep positive length => exact (by decide : 5 < 6)
  | overrun positive length => exact (by decide : 4 < 6)
  | hurry positive => exact (by decide : 3 < 6)
  | wake phase _ =>
      rw [phase]
      exact (by decide : 4 < 5)
  -- the run ends
  | choke cause => exact cause.weight_pos
  | skip phase _ | mute phase _ _ | leave phase _ _ _ | collapse phase _ _ =>
      rw [phase]
      exact (by decide : 0 < 4)
  | interrupt phase _ _ =>
      rw [phase]
      exact (by decide : 0 < 10)
  | revoke _ | fail outcome _ => exact (by decide : 0 < 8)
  | finish phase _ _ | refuse phase _ | retract phase _ _ _ _ =>
      rw [phase]
      exact (by decide : 0 < 7)

/-- Every move of a run that nobody disturbs leaves less for the run to do. -/
theorem Calm.rank_lt (h : Calm plan p w) (hplan : Conclusive plan last)
    (hmove : World.Move plan w p p' w') : w'.rank last p' < w.rank last p := by
  have hmoved := hmove
  cases hmove with
  | ask noReason =>
      -- a run that goes on to query has not come to the last result yet
      obtain ⟨_, hidle, hfew⟩ := h.sound.stage
      have hshort := hidle.behind.length_le hplan h.sound.kept.result_eq
      have hbefore : w.queryTimes.length ≤ last := by
        rw [show w.queryTimes.length = w.books.readings.length from hfew]
        exact hshort
      have hafter : (w.withQuery plan).queryTimes.length = w.queryTimes.length + 1 :=
        congrArg Books.asked (World.books_withQuery plan w)
      simp only [World.rank, Point.weight, hafter]
      omega
  | _ =>
      have hasked := hmoved.asked_eq nofun
      have hweight := hmoved.weight_lt nofun h.serene.not_mustEnd
      simp only [World.rank, hasked]
      omega

theorem Calm.rank_stepRun_lt (h : Calm plan (.held : Point ω) w) (hquiet : plan.Unsignalled)
    (hplan : Conclusive plan last) (hgo : w.runCanGo = true) :
    (w.stepRun plan).rank last (.held : Point ω) < w.rank last (.held : Point ω) := by
  have hstable : World.Stable plan fun point w₁ =>
      Calm plan point w₁ ∧ w₁.rank last point < w.rank last (.held : Point ω) :=
    fun _ _ _ _ hmove hbefore =>
      ⟨hbefore.1.move hquiet hplan hmove, (hbefore.1.rank_lt hplan hmove).trans hbefore.2⟩
  exact (hstable.stepRun_of_first hgo fun _ _ hmove =>
    ⟨h.move hquiet hplan hmove, h.rank_lt hplan hmove⟩).2

omit [Wait ω] [Spans ω τ] in
/-- A helper that has looked goes on when a signal is given or it is told to leave. -/
theorem Serene.armed_eq_none {helper : Helper τ} (h : Serene plan w) (hhelper : helper ∈ w.helpers)
    (hgo : w.helperCanGo helper = true) (hstays : helper.withdrawn = false) :
    helper.armed = none := by
  have hunarmed := h.unarmed helper hhelper
  cases harmed : helper.armed with
  | none => rfl
  | some due =>
      rw [harmed, Option.getD_some] at hunarmed
      simp only [World.helperCanGo, hstays, harmed, hunarmed, h.unasked, h.unstopped] at hgo
      cases hguards : helper.guards <;> simp [hguards] at hgo

omit [Wait ω] [Spans ω τ] in
/-- A helper that leaves, or looks for the first time, has less to do afterwards. -/
theorem World.load_stepHelper_lt {position : Nat} {helper : Helper τ}
    (hthere : w.helpers[position]? = some helper)
    (hlooks : ∀ helper', w.lookHelper helper = some helper' →
      helper.isNew = true ∧ helper'.isNew = false) :
    (w.stepHelper position helper).load < w.load := by
  obtain ⟨hposition, hget⟩ := List.getElem?_eq_some_iff.mp hthere
  cases hlook : w.lookHelper helper with
  | none =>
      have hleft : (w.stepHelper position helper).helpers = w.helpers.eraseIdx position := by
        simp only [World.stepHelper, hlook]
      have hlength := List.length_eraseIdx_add_one hposition
      have hcount : (w.helpers.eraseIdx position).countP Helper.isNew ≤
          w.helpers.countP Helper.isNew := (List.eraseIdx_sublist w.helpers position).countP_le
      simp only [World.load, hleft]
      omega
  | some helper' =>
      obtain ⟨hnew, hold⟩ := hlooks helper' hlook
      have hsettled : (w.stepHelper position helper).helpers = w.helpers.set position helper' := by
        simp only [World.stepHelper, hlook]
      have hbefore := (List.getElem_cons_eraseIdx_perm hposition).countP_eq Helper.isNew
      have hafter := (List.set_perm_cons_eraseIdx hposition helper').countP_eq Helper.isNew
      rw [hget, List.countP_cons_of_pos hnew] at hbefore
      rw [List.countP_cons_of_neg (by simp [hold])] at hafter
      simp only [World.load, hsettled, List.length_set]
      omega

omit [Wait ω] [Spans ω τ] in
/-- A helper that can take a step has less to do afterwards. -/
theorem Serene.load_stepHelper_lt {position : Nat} {helper : Helper τ} (h : Serene plan w)
    (hthere : w.helpers[position]? = some helper) (hgo : w.helperCanGo helper = true) :
    (w.stepHelper position helper).load < w.load := by
  refine World.load_stepHelper_lt hthere fun helper' hlook => ?_
  obtain ⟨rfl, hstays⟩ := h.lookHelper_eq hlook
  have hunarmed := h.armed_eq_none (List.mem_of_getElem? hthere) hgo hstays
  exact ⟨by simp [Helper.isNew, hstays, hunarmed], by simp [Helper.isNew]⟩

omit [Clock τ] [Wait ω] [Spans ω τ] in
/-- Only the run sets timers. -/
theorem Serene.timers_eq (h : Serene plan w) : w.timers = w.run.phase.timers := by
  have hnone : (w.helpers.filterMap fun helper => helper.armed.getD none) = [] :=
    List.filterMap_eq_nil_iff.mpr h.unarmed
  rw [World.timers, hnone, List.append_nil]
  cases w.run.phase <;> rfl

end Work

/-! ### Going on -/

/-- Something that is due: a step that somebody can take, or the passing of time until a timer
rings. -/
def Action.GoesOn (w : World τ ω) : Action τ → Prop
  | .run => True
  | .helper _ => True
  | .serve _ => True
  | .passTime goal => goal ∈ w.timers
  | _ => False

namespace World

variable [Clock τ] [Wait ω] [Spans ω τ]

/-- A watch goes on by itself from one state to the next. -/
def Goes (plan : Plan τ ω) (w w' : World τ ω) : Prop :=
  ∃ action : Action τ, action.GoesOn w ∧ w.act? plan action = some w'

/-- However a watch goes on, it comes to a certain state, and it does go on until then. -/
inductive Inevitably (plan : Plan τ ω) (holds : World τ ω → Prop) : World τ ω → Prop
  | now {w : World τ ω} (here : holds w) : Inevitably plan holds w
  | later {w : World τ ω} (goes : ∃ w', w.Goes plan w')
      (each : ∀ w', w.Goes plan w' → Inevitably plan holds w') : Inevitably plan holds w

/-- The clock can reach the instants that somebody waits for. -/
def InReach (w : World τ ω) : Prop :=
  Clock.isFinite w.now = true ∧ ∀ due ∈ w.timers, Clock.isFinite due = true

end World

section Going

variable [Clock τ] [Wait ω] [Spans ω τ] {plan : Plan τ ω} {last : Nat} {w w' : World τ ω}
variable {now : τ}

omit [Clock τ] [Wait ω] [Spans ω τ] in
theorem Action.GoesOn.isCalm {action : Action τ} (h : action.GoesOn w) : action.IsCalm := by
  cases action with
  | trigger t => exact h.elim
  | kill => exact h.elim
  | withdraw consumer => exact h.elim
  | ask consumer request => exact h.elim
  | _ => trivial

theorem Calm.goes (h : Calm plan (.held : Point ω) w) (hquiet : plan.Unsignalled)
    (hplan : Conclusive plan last) (hgoes : w.Goes plan w') :
    Calm plan (.held : Point ω) w' := by
  obtain ⟨action, hgo, hact⟩ := hgoes
  exact h.act hquiet hplan hgo.isCalm hact

omit [Wait ω] [Spans ω τ] in
/-- A timer that rings is not to ring again. -/
theorem Serene.ahead_lt [OrderedClock τ] (h : Serene plan w) {goal : τ} (hgoal : goal ∈ w.timers)
    (hlater : Clock.lt w.now goal = true) :
    World.ahead ({ w with now := goal } : World τ ω) < w.ahead := by
  have htimers : w.timers = [goal] := by
    rw [h.timers_eq] at hgoal ⊢
    cases hphase : w.run.phase with
    | querying number due =>
        rw [hphase] at hgoal
        rw [List.mem_singleton.mp hgoal]
        rfl
    | sleeping pause due =>
        rw [hphase] at hgoal
        rw [List.mem_singleton.mp hgoal]
        rfl
    | _ =>
        rw [hphase] at hgoal
        exact absurd hgoal List.not_mem_nil
  have hafter : ({ w with now := goal } : World τ ω).timers = [goal] := htimers
  simp [World.ahead, htimers, hafter, hlater, OrderedClock.lt_irrefl]

/-- Whatever goes on leaves less to do. -/
theorem Calm.work_lt [OrderedClock τ] (h : Calm plan (.held : Point ω) w)
    (hquiet : plan.Unsignalled) (hplan : Conclusive plan last) (hgoes : w.Goes plan w') :
    w'.work last < w.work last := by
  obtain ⟨action, hgo, hact⟩ := hgoes
  cases World.acts_of_act? hact with
  | run hcan =>
      exact Prod.Lex.toLex_lt_toLex.mpr (.inl (h.rank_stepRun_lt hquiet hplan hcan))
  | helper hthere hcan =>
      exact Prod.Lex.toLex_lt_toLex.mpr (.inr ⟨rfl, Prod.Lex.toLex_lt_toLex.mpr
        (.inl (h.serene.load_stepHelper_lt hthere hcan))⟩)
  | serve hready =>
      exact Prod.Lex.toLex_lt_toLex.mpr (.inr ⟨rfl, Prod.Lex.toLex_lt_toLex.mpr
        (.inr ⟨rfl, Prod.Lex.toLex_lt_toLex.mpr
          (.inr ⟨rfl, Stream.Traffic.toil_serveAt_lt w.traffic hready⟩)⟩)⟩)
  | passTime _ hlater _ =>
      exact Prod.Lex.toLex_lt_toLex.mpr (.inr ⟨rfl, Prod.Lex.toLex_lt_toLex.mpr
        (.inr ⟨rfl, Prod.Lex.toLex_lt_toLex.mpr (.inl (h.serene.ahead_lt hgo hlater))⟩)⟩)
  | trigger => exact hgo.elim
  | kill _ => exact hgo.elim
  | ask => exact hgo.elim
  | withdraw => exact hgo.elim

/-! ### There is always something -/

theorem World.goes_of_not_settled (plan : Plan τ ω) (h : w.isSettled = false) :
    ∃ w', w.Goes plan w' := by
  rw [World.isSettled, Bool.and_eq_false_iff, Bool.and_eq_false_iff] at h
  rcases h with (hready | hhelper) | hrun
  · have hposition : 0 < w.traffic.ready.length := by
      rw [List.length_pos_iff]
      intro hnil
      rw [Traffic.isSettled, hnil] at hready
      cases hready
    exact ⟨_, .serve 0, trivial, if_pos hposition⟩
  · rw [Option.isNone_eq_false_iff] at hhelper
    obtain ⟨position, hnext⟩ := Option.isSome_iff_exists.mp hhelper
    obtain ⟨hlength, hgo, _⟩ := List.findIdx?_eq_some_iff_getElem.mp hnext
    refine ⟨w.stepHelper position w.helpers[position], .helper position, trivial, ?_⟩
    simp only [World.act?, List.getElem?_eq_getElem hlength, hgo, if_true]
  · rw [Bool.not_eq_false'] at hrun
    exact ⟨_, .run, trivial, if_pos hrun⟩

/-- A timer that has not rung is going to. -/
theorem World.goes_of_timer [OrderedClock τ] (plan : Plan τ ω) {due : τ}
    (hsettled : w.isSettled = true) (htimers : w.timers = [due]) (hreach : w.InReach)
    (hwaits : Clock.reached w.now due = false) : ∃ w', w.Goes plan w' := by
  have hdue : due ∈ w.timers := by rw [htimers]; exact List.mem_singleton_self due
  have hlater := OrderedClock.lt_of_not_reached hreach.1 (hreach.2 due hdue) hwaits
  refine ⟨{ w with now := due }, .passTime due, hdue, ?_⟩
  simp only [World.act?, hsettled, hlater, htimers, List.all_cons, List.all_nil,
    OrderedClock.lt_irrefl]
  rfl

/-- As long as somebody is on the stream of a run that can log its first line, something can go
on. -/
theorem Calm.exists_goes [OrderedClock τ] {capacity : Int} (h : Calm plan (.held : Point ω) w)
    (hopens : w.Opens plan now) (hspeech : ∀ d, ¬Speechless plan now d)
    (hcapacity : 1 ≤ capacity) (hconserved : Conserved capacity.toNat w.traffic)
    (hwatchful : Watchful w.traffic) (hreach : w.InReach) {consumer : Nat}
    {party : Stream.Party PartyId (Event τ)} (hparty : party ∈ w.traffic.parties)
    (hid : party.id = .consumer consumer) : ∃ w', w.Goes plan w' := by
  cases hsettled : w.isSettled with
  | false => exact World.goes_of_not_settled plan hsettled
  | true =>
      have hall := hsettled
      rw [World.isSettled, Bool.and_eq_true, Bool.and_eq_true, Bool.not_eq_true'] at hall
      obtain ⟨⟨hready, hhelpers⟩, hrun⟩ := hall
      have hrest := Stream.Traffic.AtRest.of_watchful hcapacity hwatchful hconserved.fits
        hconserved.holds hready
      have htimers := h.serene.timers_eq
      cases hphase : w.run.phase with
      | created =>
          rw [World.runCanGo, hphase] at hrun
          cases hrun
      | querying number due =>
          rw [hphase] at htimers
          simp only [World.runCanGo, hphase, Bool.or_eq_false_iff] at hrun
          exact World.goes_of_timer plan hsettled htimers hreach hrun.2
      | sleeping pause due =>
          rw [hphase] at htimers
          simp only [World.runCanGo, hphase, Bool.or_eq_false_iff] at hrun
          exact World.goes_of_timer plan hsettled htimers hreach hrun.1.2
      | sending ticket event =>
          -- the offer waits for room, and the consumer for an entry
          simp only [World.runCanGo, hphase, Option.isSome_eq_false_iff,
            Option.isNone_iff_eq_none] at hrun
          obtain ⟨hsending, _, _⟩ := held_of_phase hphase h.sound.stage
          obtain ⟨hoffers, _, _⟩ := hsending.of_waiting hrun
          have hoffer : ⟨.run ticket, .send event, w.run.killed⟩ ∈ w.traffic.offers :=
            hoffers ▸ List.mem_singleton_self _
          have hblocked := hrest.apart _ (List.mem_filter.mp hoffer).1 party hparty rfl
          have hreceives := (h.sound.kept.sender party hparty).2 trivial (by rw [hid]; rfl)
          exact absurd (hblocked.symm.trans hreceives) Bool.false_ne_true
      | tidying pause defect =>
          simp only [World.runCanGo, hphase, Bool.not_eq_false', World.guarded,
            List.any_eq_true, beq_iff_eq] at hrun
          obtain ⟨helper, hhelper, hpause⟩ := hrun
          have hleaves := h.calmIn_of_phase hphase helper hhelper hpause
          have hnone := List.findIdx?_eq_none_iff.mp (Option.isNone_iff_eq_none.mp hhelpers)
          have hstays := hnone helper hhelper
          rw [World.helperCanGo, hleaves] at hstays
          cases hstays
      | ended how =>
          have hspoke : ∀ d, w.ending? ≠ some (.mute d) := fun d hmute =>
            hspeech d (hopens.2 d (World.ending?_eq_some.mp hmute))
          have hclosed := h.sound.closed_eq.trans (hasShut_eq hspoke)
          rw [World.ending?_eq_some.mpr hphase] at hclosed
          rw [hrest.closed hclosed] at hparty
          exact absurd hparty List.not_mem_nil

/-- The stream of a watch that goes on as it should, with a consumer on it. -/
structure Attended (capacity consumer : Nat) (t : Traffic PartyId (Event τ)) : Prop where
  conserved : Conserved capacity t
  watchful : Watchful t
  asked : t.Asked (.consumer consumer)

theorem attended_invariant (capacity consumer : Nat) :
    World.Invariant plan (fun _ => True) fun _ w => Attended capacity consumer w.traffic :=
  stream_invariant (Attended capacity consumer)
    fun _ s h => ⟨h.conserved.step s, h.watchful.step s, h.asked.step s⟩

/-- A consumer that has asked is answered sooner or later, if the run can log its first line and the
clock can reach the instants that the watch waits for. -/
theorem Calm.inevitably_answered [OrderedClock τ] {capacity : Int} {consumer : Nat}
    (hquiet : plan.Unsignalled) (hplan : Conclusive plan last) (hcapacity : 1 ≤ capacity)
    (hspeech : ∀ d, ¬Speechless plan now d) (h : Calm plan (.held : Point ω) w)
    (hopens : w.Opens plan now) (hattended : Attended capacity.toNat consumer w.traffic) :
    w.Inevitably plan fun w' => (w'.replyTo? consumer).isSome = true ∨ ¬w'.InReach := by
  -- by induction on what is left to do
  induction hwork : w.work last using WellFoundedLT.induction generalizing w with
  | ind work ih =>
      by_cases hhere : (w.replyTo? consumer).isSome = true ∨ ¬w.InReach
      · exact .now hhere
      · obtain ⟨hunanswered, hreach⟩ := not_or.mp hhere
        rw [not_not] at hreach
        obtain ⟨party, hparty, hid⟩ := hattended.asked.resolve_right hunanswered
        refine .later ?_ fun w' hgoes => ?_
        · exact h.exists_goes hopens hspeech hcapacity hattended.conserved hattended.watchful
            hreach hparty hid
        · obtain ⟨action, _, hact⟩ := id hgoes
          have hopens' := (World.opens_invariant now).act trivial hact (fun _ => hopens) rfl
          exact ih _ (hwork ▸ h.work_lt hquiet hplan hgoes) (h.goes hquiet hplan hgoes) hopens'
            ((attended_invariant _ _).act trivial hact hattended) rfl

end Going

end Vigil.Watch
