import Vigil.Proofs.Watch.Liveness

/-!
# The guards of a pause

Two helpers guard each pause of a run.  They come when the run falls asleep and they have left when
it goes on, so there are none anywhere else.  On an exact clock the timer of a helper is set to the
deadline itself; so nobody can rest while a run sleeps that has to end, and there is little that the
run and its helpers can do before the run is up.
-/

namespace Vigil.Watch

open Log (Note)

variable {τ ω : Type}

/-- The run is in a pause: it sleeps, or it is on its feet and waits for its helpers to leave.  A
pause that the clock cannot count does not put the run to sleep. -/
def Phase.isAsleep : Phase τ → Bool
  | .sleeping _ _ => true
  | .tidying _ none => true
  | _ => false

/-- The action is a step of the run or of one of its helpers. -/
def Action.isOwn : Action τ → Bool
  | .run => true
  | .helper _ => true
  | _ => false

/-- The helpers that there are while the run is held up in a phase. -/
def GuardedIn (helpers : List (Helper τ)) : Phase τ → Prop
  | .sleeping pause _ => helpers.length ≤ 2 ∧ ∀ h ∈ helpers, h.pause = pause ∧ h.withdrawn = false
  | .tidying pause _ => helpers.length ≤ 2 ∧ ∀ h ∈ helpers, h.pause = pause ∧ h.withdrawn = true
  | _ => helpers = []

/-- The helpers that there are at a point of the control flow. -/
def GuardedAt (w : World τ ω) : Point ω → Prop
  | .held => GuardedIn w.helpers w.run.phase
  | _ => w.helpers = []

theorem guardedIn_of_phase {w : World τ ω} {phase : Phase τ} (hphase : w.run.phase = phase)
    (h : GuardedAt w (.held : Point ω)) : GuardedIn w.helpers phase := by
  rw [← hphase]
  exact h

namespace World

section Reason

variable [Clock τ] {w : World τ ω}

/-- Somebody asked for the cancellation, or its deadline was reached. -/
def Fired (w : World τ ω) : Prop :=
  w.cancellation.requested = true ∨ ∃ due ∈ w.cancellation.deadline, Clock.reached w.now due = true

theorem hasFired_iff : w.cancellation.hasFired w.now = true ↔ w.Fired := by
  rw [Cancellation.hasFired, Cancellation.deadlineExceeded, Fired]
  cases w.cancellation.requested <;> cases w.cancellation.deadline <;> simp

theorem Fired.mustEnd (h : w.Fired) : w.MustEnd := h.imp .inl id

end Reason

/-! ### Who comes and who leaves -/

section Helpers

variable (w : World τ ω)

theorem helpers_of_surroundings {w w' : World τ ω} (h : w'.surroundings = w.surroundings) :
    w'.helpers = w.helpers :=
  congrArg (fun surroundings => surroundings.2.2) h

theorem helpers_trigger (t : Trigger) : (w.trigger t).helpers = w.helpers := by
  cases t <;> rfl

theorem helpers_triggers (triggers : List Trigger) :
    (triggers.foldl trigger w).helpers = w.helpers := by
  induction triggers generalizing w with
  | nil => rfl
  | cons t triggers ih => exact (ih (w.trigger t)).trans (w.helpers_trigger t)

theorem helpers_noteAll (notes : List Note) : (w.noteAll notes).helpers = w.helpers :=
  helpers_of_surroundings (w.surroundings_noteAll notes)

theorem helpers_openClient (plan : Plan τ ω) : (w.openClient plan).helpers = w.helpers :=
  helpers_of_surroundings (w.surroundings_openClient plan)

theorem helpers_closeClient (plan : Plan τ ω) : (w.closeClient plan).helpers = w.helpers :=
  helpers_of_surroundings (w.surroundings_closeClient plan)

theorem helpers_callHook (plan : Plan τ ω) (snapshot : Snapshot τ) :
    (w.callHook plan snapshot).helpers = w.helpers := by
  rw [callHook]
  split
  · rfl
  · dsimp only
    split
    · rfl
    · exact helpers_trigger _ _
    · rfl

theorem helpers_withHook (plan : Plan τ ω) (snapshot : Snapshot τ) :
    (w.withHook plan snapshot).helpers = w.helpers :=
  (helpers_noteAll _ _).trans (w.helpers_callHook plan snapshot)

theorem helpers_shutWith (event : Event τ) : (w.shutWith event).helpers = w.helpers := by
  rw [shutWith]
  split <;> rfl

theorem helpers_breakDown (how : Ending) : (w.breakDown how).helpers = w.helpers :=
  helpers_of_surroundings w.surroundings_shut

theorem helpers_withFarewell (plan : Plan τ ω) : (w.withFarewell plan).helpers = w.helpers :=
  helpers_shutWith _ _

/-- No helper guards a pause that is over. -/
theorem helpers_eq_nil_of_tidy {w : World τ ω} {pause : Nat} {defect : Option Defect}
    (h : GuardedAt w (.held : Point ω)) (hphase : w.run.phase = .tidying pause defect)
    (htidy : w.guarded pause = false) : w.helpers = [] := by
  obtain ⟨_, hown⟩ := guardedIn_of_phase hphase h
  rw [guarded, List.any_eq_false] at htidy
  rw [List.eq_nil_iff_forall_not_mem]
  intro helper hhelper
  exact htidy helper hhelper (beq_iff_eq.mpr (hown helper hhelper).1)

/-- Helpers that are told to leave are as many as before, and guard the same pause. -/
theorem guardedIn_dismissHelpers {w : World τ ω} {pause : Nat} {due : τ} (defect : Option Defect)
    (h : GuardedIn w.helpers (.sleeping pause due)) :
    GuardedIn (w.dismissHelpers pause).helpers (.tidying pause defect) := by
  obtain ⟨hfew, hown⟩ := h
  refine ⟨by simpa [dismissHelpers] using hfew, ?_⟩
  intro helper hhelper
  obtain ⟨original, horiginal, rfl⟩ := List.mem_map.mp hhelper
  rw [if_pos (hown original horiginal).1]
  exact ⟨(hown original horiginal).1, rfl⟩

/-- The two helpers of a new pause are the only ones. -/
theorem guardedIn_withPause {w : World τ ω} (hnone : w.helpers = []) (delay : ω) (due : τ) :
    GuardedIn (w.withPause delay).helpers (.sleeping w.run.pauses due) := by
  have hhelpers : (w.withPause delay).helpers =
      w.helpers ++ [⟨w.run.pauses, .cancellation, none, false⟩,
        ⟨w.run.pauses, .stop, none, false⟩] := rfl
  rw [hhelpers, hnone]
  simp [GuardedIn]

end Helpers

variable [Clock τ] [Wait ω] [Spans ω τ] {plan : Plan τ ω} {w w' : World τ ω}

omit [Spans ω τ] in
/-- Nobody guards a run that breaks because it cannot log something. -/
theorem Choke.helpers_eq_nil {p : Point ω} {d : Defect} (hchoke : Choke plan w p w' d)
    (h : GuardedAt w p) : w'.helpers = [] := by
  cases hchoke with
  | abort _ _ => exact h
  | outcome _ _ _ => exact h
  | revoke _ => exact h
  | complaint phase _ _ _ =>
      exact (w.helpers_callHook plan _).trans (guardedIn_of_phase phase h)
  | grace phase _ _ _ _ => exact (w.helpers_withHook plan _).trans (guardedIn_of_phase phase h)
  | interrupt phase _ _ => exact (w.helpers_closeClient plan).trans (guardedIn_of_phase phase h)
  | retract phase _ _ _ _ =>
      have hnone : w.helpers = [] := guardedIn_of_phase phase h
      exact hnone
  | leave phase tidy _ _ => exact helpers_eq_nil_of_tidy h phase tidy

theorem guarded_stable : Stable plan fun point w => GuardedAt w point := by
  intro w p p' w' hmove h
  cases hmove with
  | skip phase _ => exact (helpers_shutWith _ _).trans (guardedIn_of_phase phase h)
  | start phase _ _ _ =>
      have hnone : w.helpers = [] := guardedIn_of_phase phase h
      exact hnone
  | mute phase _ _ =>
      have hnone : w.helpers = [] := guardedIn_of_phase phase h
      exact hnone
  | choke cause => exact (helpers_breakDown _ _).trans (cause.helpers_eq_nil h)
  | abort _ _ => exact h
  | ask _ => exact (helpers_openClient _ plan).trans h
  | wait _ => exact h
  | atOnce _ => exact h
  | inTime phase _ _ =>
      have hnone : w.helpers = [] := guardedIn_of_phase phase h
      exact hnone
  | interrupt phase _ _ =>
      have hclosed := w.helpers_closeClient plan
      exact ((helpers_withFarewell _ plan).trans hclosed).trans (guardedIn_of_phase phase h)
  | @answer number =>
      have htriggered := w.helpers_triggers (plan.services number).triggers
      exact ((helpers_closeClient _ plan).trans htriggered).trans h
  | revoke _ => exact (w.helpers_withFarewell plan).trans h
  | fail _ _ => exact ((helpers_breakDown _ _).trans (w.helpers_noteAll _)).trans h
  | publish _ _ => exact (w.helpers_noteAll _).trans h
  | finish phase _ _ => exact (w.helpers_breakDown _).trans (guardedIn_of_phase phase h)
  | grace phase _ _ _ _ => exact (w.helpers_withHook plan _).trans (guardedIn_of_phase phase h)
  | progress phase _ _ _ => exact (w.helpers_withHook plan _).trans (guardedIn_of_phase phase h)
  | retry phase _ _ _ =>
      have hnone : w.helpers = [] := guardedIn_of_phase phase h
      exact hnone
  | refuse phase _ => exact (w.helpers_breakDown _).trans (guardedIn_of_phase phase h)
  | retract phase _ _ _ _ =>
      exact (w.helpers_withFarewell plan).trans (guardedIn_of_phase phase h)
  | @sleep delay span _ _ => exact guardedIn_withPause h delay (Clock.add w.now span)
  | @overrun delay _ _ =>
      exact guardedIn_dismissHelpers (some .tooLarge)
        (guardedIn_withPause h delay (Clock.zero : τ))
  | hurry _ => exact h
  | wake phase _ => exact guardedIn_dismissHelpers none (guardedIn_of_phase phase h)
  | leave phase tidy _ _ =>
      exact (w.helpers_withFarewell plan).trans (helpers_eq_nil_of_tidy h phase tidy)
  | collapse phase tidy _ =>
      exact (w.helpers_breakDown _).trans (helpers_eq_nil_of_tidy h phase tidy)
  | rise phase tidy _ => exact helpers_eq_nil_of_tidy h phase tidy

omit [Wait ω] [Spans ω τ] in
/-- What a helper does that stays after a look. -/
inductive Stays (w : World τ ω) (h : Helper τ) : Helper τ → Prop
  | unfired (guards : h.guards = .cancellation)
      (unfired : w.cancellation.hasFired w.now = false) :
      Stays w h { h with
        armed := some ((w.cancellation.timeLeft w.now).map (Clock.add w.now)) }
  | unstopped (guards : h.guards = .stop) (unstopped : w.stopped = false) :
      Stays w h { h with armed := some none }

omit [Wait ω] [Spans ω τ] in
theorem stays_of_lookHelper {h h' : Helper τ} (hlook : w.lookHelper h = some h') :
    h.withdrawn = false ∧ w.Stays h h' := by
  rw [lookHelper] at hlook
  cases hwithdrawn : h.withdrawn with
  | true =>
      rw [hwithdrawn, if_pos rfl] at hlook
      cases hlook
  | false =>
      simp only [hwithdrawn, Bool.false_eq_true, if_false] at hlook
      refine ⟨rfl, ?_⟩
      cases hguards : h.guards with
      | cancellation =>
          simp only [hguards, Cancellation.look] at hlook
          cases hfired : w.cancellation.hasFired w.now with
          | true =>
              rw [hfired, if_pos rfl] at hlook
              cases hlook
          | false =>
              simp only [hfired, Bool.false_eq_true, if_false, Option.some.injEq] at hlook
              rw [← hlook, ← hguards, ← hwithdrawn]
              exact .unfired hguards hfired
      | stop =>
          simp only [hguards] at hlook
          cases hstopped : w.stopped with
          | true =>
              rw [hstopped, if_pos rfl] at hlook
              cases hlook
          | false =>
              simp only [hstopped, Bool.false_eq_true, if_false, Option.some.injEq] at hlook
              rw [← hlook, ← hguards, ← hwithdrawn]
              exact .unstopped hguards hstopped

omit [Wait ω] [Spans ω τ] in
/-- Nothing changes about such a helper but its timer. -/
theorem Stays.same {h h' : Helper τ} (hstays : w.Stays h h') :
    h'.pause = h.pause ∧ h'.guards = h.guards ∧ h'.withdrawn = h.withdrawn := by
  cases hstays <;> exact ⟨rfl, rfl, rfl⟩

omit [Wait ω] [Spans ω τ] in
/-- Each helper that is left after a look is an old one, or the one that looked. -/
theorem mem_helpers_stepHelper {position : Nat} {h other : Helper τ}
    (hother : other ∈ (w.stepHelper position h).helpers) :
    other ∈ w.helpers ∨ w.lookHelper h = some other := by
  simp only [stepHelper] at hother
  split at hother
  · rename_i h' hlook
    rcases List.mem_or_eq_of_mem_set hother with hold | rfl
    · exact .inl hold
    · exact .inr hlook
  · exact .inl (List.mem_of_mem_eraseIdx hother)

omit [Wait ω] [Spans ω τ] in
theorem length_helpers_stepHelper_le (w : World τ ω) (position : Nat) (h : Helper τ) :
    (w.stepHelper position h).helpers.length ≤ w.helpers.length := by
  simp only [stepHelper]
  split
  · rw [List.length_set]
  · exact List.length_eraseIdx_le _ _

omit [Wait ω] [Spans ω τ] in
theorem guardedAt_stepHelper {position : Nat} {h : Helper τ}
    (hthere : w.helpers[position]? = some h) (hbefore : GuardedAt w (.held : Point ω)) :
    GuardedAt (w.stepHelper position h) (.held : Point ω) := by
  have hmember : h ∈ w.helpers := List.mem_of_getElem? hthere
  have hfew := w.length_helpers_stepHelper_le position h
  have hnobody (hnone : w.helpers = []) : False := List.not_mem_nil (hnone ▸ hmember)
  change GuardedIn (w.stepHelper position h).helpers w.run.phase
  cases hphase : w.run.phase with
  | created => exact (hnobody (guardedIn_of_phase hphase hbefore)).elim
  | querying number due => exact (hnobody (guardedIn_of_phase hphase hbefore)).elim
  | sending ticket event => exact (hnobody (guardedIn_of_phase hphase hbefore)).elim
  | ended how => exact (hnobody (guardedIn_of_phase hphase hbefore)).elim
  | sleeping pause due =>
      obtain ⟨hlength, hown⟩ := guardedIn_of_phase hphase hbefore
      refine ⟨hfew.trans hlength, fun other hother => ?_⟩
      rcases mem_helpers_stepHelper hother with hold | hlook
      · exact hown other hold
      · obtain ⟨hwithdrawn, hstays⟩ := stays_of_lookHelper hlook
        exact ⟨hstays.same.1.trans (hown h hmember).1, hstays.same.2.2.trans hwithdrawn⟩
  | tidying pause defect =>
      obtain ⟨hlength, hown⟩ := guardedIn_of_phase hphase hbefore
      refine ⟨hfew.trans hlength, fun other hother => ?_⟩
      rcases mem_helpers_stepHelper hother with hold | hlook
      · exact hown other hold
      · -- whoever was told to leave does not stay
        have hleaves := (hown h hmember).2
        rw [(stays_of_lookHelper hlook).1] at hleaves
        cases hleaves

omit [Clock τ] [Wait ω] [Spans ω τ] in
theorem guardedAt_kill (hbefore : GuardedAt w (.held : Point ω)) :
    GuardedAt w.kill (.held : Point ω) := by
  have hsame : w.kill.helpers = w.helpers ∧ w.kill.run.phase = w.run.phase := by
    rw [World.kill]
    split <;> exact ⟨rfl, rfl⟩
  change GuardedIn w.kill.helpers w.kill.run.phase
  rw [hsame.1, hsame.2]
  exact hbefore

/-- A run sleeps under both guards, unless the watch has to end. -/
def MannedAt (w : World τ ω) : Point ω → Prop
  | .held => ∀ pause due, w.run.phase = .sleeping pause due →
      w.fullyGuarded pause = true ∨ w.MustEnd
  | _ => True

omit [Wait ω] [Spans ω τ] in
/-- A helper that stays is on the same guard as before. -/
theorem fullyGuarded_stepHelper {position : Nat} {h h' : Helper τ}
    (hthere : w.helpers[position]? = some h) (hlook : w.lookHelper h = some h') (pause : Nat) :
    (w.stepHelper position h).fullyGuarded pause = w.fullyGuarded pause := by
  obtain ⟨hpause, hguards, _⟩ := (stays_of_lookHelper hlook).2.same
  obtain ⟨hposition, hget⟩ := List.getElem?_eq_some_iff.mp hthere
  have hany (g : Guard) :
      ((w.helpers.set position h').any fun h => h.pause == pause && h.guards == g) =
        w.helpers.any fun h => h.pause == pause && h.guards == g := by
    have hafter := (List.set_perm_cons_eraseIdx hposition h').any_eq
      (f := fun h => h.pause == pause && h.guards == g)
    have hbefore := (List.getElem_cons_eraseIdx_perm hposition).any_eq
      (f := fun h => h.pause == pause && h.guards == g)
    rw [hget] at hbefore
    rw [hafter, ← hbefore, List.any_cons, List.any_cons, hpause, hguards]
  have hhelpers : (w.stepHelper position h).helpers = w.helpers.set position h' := by
    simp only [stepHelper, hlook]
  simp only [fullyGuarded, hhelpers, hany]

omit [Wait ω] [Spans ω τ] in
/-- A helper that was not told to leave does so only when the watch has to end. -/
theorem mustEnd_of_lookHelper {h : Helper τ} (hlook : w.lookHelper h = none)
    (hstays : h.withdrawn = false) : w.MustEnd := by
  rw [lookHelper, hstays, if_neg Bool.false_ne_true] at hlook
  cases hguards : h.guards with
  | cancellation =>
      simp only [hguards, Cancellation.look] at hlook
      cases hfired : w.cancellation.hasFired w.now with
      | true => exact (hasFired_iff.mp hfired).mustEnd
      | false =>
          simp only [hfired, Bool.false_eq_true, if_false] at hlook
          cases hlook
  | stop =>
      simp only [hguards] at hlook
      cases hstopped : w.stopped with
      | true => exact .inl (.inr hstopped)
      | false =>
          simp only [hstopped, Bool.false_eq_true, if_false] at hlook
          cases hlook

theorem manned_stable : Stable plan fun point w => MannedAt w point := by
  intro w p p' w' hmove h
  cases hmove with
  | @sleep delay span _ _ =>
      intro pause due hphase
      obtain ⟨rfl, _⟩ := Phase.sleeping.inj hphase
      left
      simp [fullyGuarded, goTo, withPause, callHelpers]
  | start _ _ _ _ => trivial
  | ask _ => trivial
  | atOnce _ => trivial
  | inTime _ _ _ => trivial
  | answer => trivial
  | grace _ _ _ _ _ => trivial
  | progress _ _ _ _ => trivial
  | retry _ _ _ _ => trivial
  | hurry _ => trivial
  | rise _ _ _ => trivial
  -- all other moves lead to a phase in which the run does not sleep
  | _ => rintro pause due hphase; cases hphase

/-- The helpers that there are at each point of the control flow, and that a run sleeps under both
guards. -/
theorem manned_invariant [OrderedClock τ] :
    Invariant plan (fun _ => True) fun point w => GuardedAt w point ∧ MannedAt w point where
  moves := fun _ _ _ _ hmove h => ⟨guarded_stable hmove h.1, manned_stable hmove h.2⟩
  helper {w position helper} there _ before := by
    refine ⟨guardedAt_stepHelper there before.1, fun pause due hphase => ?_⟩
    have hsleeping : w.run.phase = .sleeping pause due := hphase
    cases hlook : w.lookHelper helper with
    | some helper' =>
        rw [fullyGuarded_stepHelper there hlook]
        exact before.2 pause due hsleeping
    | none =>
        obtain ⟨_, hown⟩ := guardedIn_of_phase hsleeping before.1
        have hmember : helper ∈ w.helpers := List.mem_of_getElem? there
        exact .inr (mustEnd_of_lookHelper hlook (hown helper hmember).2)
  serve _ before := before
  passTime _ later _ before :=
    ⟨before.1, fun pause due hphase => (before.2 pause due hphase).imp id fun hmust =>
      hmust.later later⟩
  trigger {w t} before := by
    refine ⟨by cases t <;> exact before.1, fun pause due hphase => .inr (.inl ?_)⟩
    exact w.signalled_trigger t
  kill {w} _ before := by
    refine ⟨guardedAt_kill before.1, ?_⟩
    rw [World.kill]
    split
    · exact before.2
    · exact before.2
    · exact before.2
  ask _ before := before
  withdraw _ before := before

/-! ### What the timers of the helpers are for -/

omit [Clock τ] [Wait ω] [Spans ω τ] in
/-- The instant at which a helper has to look, if there is one. -/
def alarm (w : World τ ω) : Guard → Option τ
  | .cancellation => w.cancellation.deadline
  | .stop => none

/-- What holds of the helpers at each point of the control flow. -/
structure Guarded (point : Point ω) (w : World τ ω) : Prop where
  guards : GuardedAt w point
  alarms : ∀ h ∈ w.helpers, ∀ due ∈ h.armed, due = w.alarm h.guards

omit [Clock τ] [Wait ω] [Spans ω τ] in
theorem guarded_of_nil {point : Point ω} (hguards : GuardedAt w point) (hnone : w.helpers = []) :
    Guarded point w :=
  ⟨hguards, fun _ hmember => absurd (hnone ▸ hmember) List.not_mem_nil⟩

omit [Clock τ] [Wait ω] [Spans ω τ] in
/-- A helper that is told to leave keeps its timer. -/
theorem alarms_dismissHelpers {pause : Nat}
    (h : ∀ h ∈ w.helpers, ∀ due ∈ h.armed, due = w.alarm h.guards) :
    ∀ h ∈ (w.dismissHelpers pause).helpers, ∀ due ∈ h.armed, due = w.alarm h.guards := by
  intro helper hhelper
  obtain ⟨original, horiginal, rfl⟩ := List.mem_map.mp hhelper
  split_ifs <;> exact h original horiginal

omit [Clock τ] [Wait ω] [Spans ω τ] in
/-- The helpers of a new pause have no timers yet. -/
theorem alarms_withPause (hnone : w.helpers = []) (delay : ω) :
    ∀ h ∈ (w.withPause delay).helpers, ∀ due ∈ h.armed, due = w.alarm h.guards := by
  intro helper hhelper due hdue
  rcases List.mem_append.mp hhelper with hold | hnew
  · have hold' : helper ∈ w.helpers := hold
    exact absurd (hnone ▸ hold') List.not_mem_nil
  · simp only [List.mem_cons, List.not_mem_nil, or_false] at hnew
    rcases hnew with rfl | rfl <;> cases hdue

section Exact

variable [ExactClock τ]

omit [Wait ω] [Spans ω τ] in
/-- A helper that stays has set its timer to the deadline, if it guards against that. -/
theorem Stays.alarm_eq {h h' : Helper τ} (hstays : w.Stays h h') :
    ∀ due ∈ h'.armed, due = w.alarm h'.guards := by
  intro due hdue
  cases hstays with
  | unstopped guards _ =>
      obtain rfl := Option.some.inj hdue
      simp only [guards, alarm]
  | unfired guards unfired =>
      obtain rfl := Option.some.inj hdue
      simp only [guards, alarm, Cancellation.timeLeft, Option.map_map]
      cases hdeadline : w.cancellation.deadline with
      | none => rfl
      | some deadline =>
          have hwaits : Clock.reached w.now deadline = false := by
            simp only [Cancellation.hasFired, Cancellation.deadlineExceeded, hdeadline,
              Option.map_some, Option.getD_some, Bool.or_eq_false_iff] at unfired
            simpa [unfired.1] using unfired.2
          exact congrArg some (ExactClock.add_left hwaits)

/-- The helpers of a run are on their guard at every moment. -/
theorem guarded_invariant :
    Invariant plan (fun _ => True) fun point w => Guarded point w where
  moves := by
    intro w p p' w' hmove h
    have hguards := guarded_stable hmove h.guards
    refine ⟨hguards, ?_⟩
    cases hmove with
    | @sleep delay _ _ _ => exact alarms_withPause h.guards delay
    | @overrun delay _ _ =>
        exact alarms_dismissHelpers (w := w.withPause delay) (alarms_withPause h.guards delay)
    | wake _ _ => exact alarms_dismissHelpers h.alarms
    | _ => exact (guarded_of_nil hguards hguards).alarms
  helper {w position helper} there ready before := by
    refine ⟨guardedAt_stepHelper there before.guards, fun other hother => ?_⟩
    rcases mem_helpers_stepHelper hother with hold | hlook
    · exact before.alarms other hold
    · exact (stays_of_lookHelper hlook).2.alarm_eq
  serve _ before := ⟨before.guards, before.alarms⟩
  passTime _ _ _ before := ⟨before.guards, before.alarms⟩
  trigger {w t} before := by
    cases t <;> exact ⟨before.guards, before.alarms⟩
  kill heldUp before := by
    refine ⟨guardedAt_kill before.guards, ?_⟩
    rw [World.kill]
    split <;> exact before.alarms
  ask _ before := ⟨before.guards, before.alarms⟩
  withdraw _ before := ⟨before.guards, before.alarms⟩

end Exact

/-! ### No rest for a run that has to end -/

omit [Wait ω] [Spans ω τ] in
/-- Whatever has to end has to because of something that one of the two guards looks out for. -/
theorem MustEnd.alarm (h : w.MustEnd) :
    w.cancellation.requested = true ∨ w.stopped = true ∨
      ∃ due ∈ w.alarm .cancellation, Clock.reached w.now due = true := by
  rcases h with (hrequested | hstopped) | hreached
  · exact .inl hrequested
  · exact .inr (.inl hstopped)
  · exact .inr (.inr hreached)

omit [Wait ω] [Spans ω τ] in
/-- The guard that a watch has to end for can take a step. -/
theorem Guarded.helperCanGo (h : Guarded (.held : Point ω) w) (hmust : w.MustEnd) :
    ∃ guards : Guard, ∀ helper ∈ w.helpers, helper.guards = guards →
      w.helperCanGo helper = true := by
  rcases hmust.alarm with hrequested | hstopped | ⟨due, hdue, hreached⟩
  · refine ⟨.cancellation, fun helper _ hguards => ?_⟩
    cases harmed : helper.armed <;> simp [World.helperCanGo, harmed, hguards, hrequested]
  · refine ⟨.stop, fun helper _ hguards => ?_⟩
    cases harmed : helper.armed <;> simp [World.helperCanGo, harmed, hguards, hstopped]
  · refine ⟨.cancellation, fun helper hhelper hguards => ?_⟩
    cases harmed : helper.armed with
    | none => simp [World.helperCanGo, harmed]
    | some timer =>
        have htimer := h.alarms helper hhelper timer harmed
        rw [hguards, Option.mem_def.mp hdue] at htimer
        simp [World.helperCanGo, harmed, hguards, htimer, hreached]

/-- A run that sleeps and has to end does not rest: it can take a step, or one of its helpers
can. -/
theorem Guarded.exists_own (plan : Plan τ ω) (h : Guarded (.held : Point ω) w)
    (hasleep : w.run.phase.isAsleep = true) (hmust : w.MustEnd) :
    ∃ action : Action τ, action.isOwn = true ∧ (w.act? plan action).isSome = true := by
  have hrun (hgo : w.runCanGo = true) :
      ∃ action : Action τ, action.isOwn = true ∧ (w.act? plan action).isSome = true :=
    ⟨.run, rfl, by simp [act?, hgo]⟩
  have hhelper {helper : Helper τ} (hmember : helper ∈ w.helpers)
      (hgo : w.helperCanGo helper = true) :
      ∃ action : Action τ, action.isOwn = true ∧ (w.act? plan action).isSome = true := by
    obtain ⟨position, hthere⟩ := List.mem_iff_getElem?.mp hmember
    exact ⟨.helper position, rfl, by simp [act?, hthere, hgo]⟩
  cases hphase : w.run.phase with
  | created => rw [hphase] at hasleep; cases hasleep
  | querying number due => rw [hphase] at hasleep; cases hasleep
  | sending ticket event => rw [hphase] at hasleep; cases hasleep
  | ended how => rw [hphase] at hasleep; cases hasleep
  | sleeping pause due =>
      cases hfull : w.fullyGuarded pause with
      | false => exact hrun (by simp [runCanGo, hphase, hfull])
      | true =>
          obtain ⟨guards, hgo⟩ := h.helperCanGo hmust
          have hpresent : ∀ g : Guard, ∃ helper ∈ w.helpers, helper.guards = g := by
            simp only [fullyGuarded, List.all_cons, List.all_nil, Bool.and_true, Bool.and_eq_true,
              List.any_eq_true, beq_iff_eq] at hfull
            obtain ⟨⟨helper, hmember, _, hguards⟩, ⟨helper', hmember', _, hguards'⟩⟩ := hfull
            rintro (_ | _)
            · exact ⟨helper, hmember, hguards⟩
            · exact ⟨helper', hmember', hguards'⟩
          obtain ⟨helper, hmember, hguards⟩ := hpresent guards
          exact hhelper hmember (hgo helper hmember hguards)
  | tidying pause defect =>
      obtain ⟨_, hown⟩ := guardedIn_of_phase hphase h.guards
      cases hguarded : w.guarded pause with
      | false => exact hrun (by simp [runCanGo, hphase, hguarded])
      | true =>
          rw [guarded, List.any_eq_true] at hguarded
          obtain ⟨helper, hmember, _⟩ := hguarded
          exact hhelper hmember (by simp [World.helperCanGo, (hown helper hmember).2])

/-- Nobody is settled while the run or one of its helpers can take a step. -/
theorem isSettled_of_own {action : Action τ} (hown : action.isOwn = true)
    (hcan : (w.act? plan action).isSome = true) : w.isSettled = false := by
  cases action with
  | run =>
      have hgo : w.runCanGo = true := by
        by_contra hnot
        simp [act?, hnot] at hcan
      simp [isSettled, hgo]
  | helper position =>
      cases hthere : w.helpers[position]? with
      | none => simp [act?, hthere] at hcan
      | some helper =>
          have hgo : w.helperCanGo helper = true := by
            by_contra hnot
            simp [act?, hthere, hnot] at hcan
          have hnext : w.nextHelper?.isNone = false := by
            rw [nextHelper?, Option.isNone_eq_false_iff, List.findIdx?_isSome, List.any_eq_true]
            exact ⟨helper, List.mem_of_getElem? hthere, hgo⟩
          simp [isSettled, hnext]
  | _ => cases hown

omit [Wait ω] [Spans ω τ] in
/-- Once everybody is settled, neither the run nor a helper can take a step. -/
theorem resting_of_settled (hsettled : w.isSettled = true) :
    w.runCanGo = false ∧ ∀ helper ∈ w.helpers, w.helperCanGo helper = false := by
  simp only [isSettled, nextHelper?, Bool.and_eq_true, Option.isNone_iff_eq_none,
    List.findIdx?_eq_none_iff, Bool.not_eq_true'] at hsettled
  exact ⟨hsettled.2, hsettled.1.2⟩

omit [Wait ω] [Spans ω τ] in
/-- Whoever tidies up is not settled, for the helpers that were told to leave can do so. -/
theorem not_tidying_of_settled (h : GuardedAt w (.held : Point ω)) (hsettled : w.isSettled = true)
    (pause : Nat) (defect : Option Defect) : w.run.phase ≠ .tidying pause defect := by
  intro hphase
  obtain ⟨hrun, hhelpers⟩ := resting_of_settled hsettled
  obtain ⟨_, hown⟩ := guardedIn_of_phase hphase h
  rw [runCanGo, hphase, Bool.not_eq_false', guarded, List.any_eq_true] at hrun
  obtain ⟨helper, hmember, _⟩ := hrun
  have hstays := hhelpers helper hmember
  rw [World.helperCanGo, (hown helper hmember).2, Bool.true_or] at hstays
  cases hstays

/-- What the step of a run does that is on its feet and has to end. -/
inductive Rises (plan : Plan τ ω) (w : World τ ω) : World τ ω → Prop
  /-- Its task was cancelled, and it is over. -/
  | farewell (killed : w.run.killed = true) : Rises plan w (w.withFarewell plan)
  /-- It says so. -/
  | decision {note : Note} {event : Event τ} (alive : w.run.killed = false)
      (reason : w.abort? plan = some (note, event)) : Rises plan w ((w.note note).send event)
  /-- It can log neither. -/
  | undated (undated : ¬w.CanRecord plan) : Rises plan w (w.breakDown (.broken .tooLarge))

theorem rises_stepRun {pause : Nat} (hphase : w.run.phase = .tidying pause none)
    (hmust : w.MustEnd) : Rises plan w (w.stepRun plan) := by
  simp only [stepRun, hphase]
  cases hkilled : w.run.killed with
  | true => exact unwind_cases (fun _ => .farewell hkilled) .undated
  | false =>
      simp only [Bool.false_eq_true, if_false, decide]
      cases habort : w.abort? plan with
      | none => exact absurd hmust (abort?_eq_none.mp habort)
      | some reason =>
          by_cases hdated : w.CanRecord plan
          · simp only [conclude, logAll_of_canRecord (.inr hdated)]
            exact .decision hkilled habort
          · simp only [conclude, logAll_of_not_canRecord (List.cons_ne_nil _ _) hdated]
            exact .undated hdated

omit [Wait ω] [Spans ω τ] in
theorem Rises.isAsleep_eq (h : Rises plan w w') : w'.run.phase.isAsleep = false := by
  cases h <;> rfl

/-! ### How much is left to do -/

omit [Clock τ] [Wait ω] [Spans ω τ] in
/-- What a run and its helpers have to do before the run is up. -/
def toRise (w : World τ ω) : Nat := w.run.phase.weight + w.load

omit [Clock τ] [Wait ω] [Spans ω τ] in
theorem load_dismissHelpers_le (w : World τ ω) (pause : Nat) :
    (w.dismissHelpers pause).load ≤ w.load := by
  have hcount : (w.dismissHelpers pause).helpers.countP Helper.isNew ≤
      w.helpers.countP Helper.isNew := by
    rw [dismissHelpers, List.countP_map]
    refine List.countP_mono_left fun helper _ hnew => ?_
    simp only [Function.comp_apply] at hnew
    split_ifs at hnew
    · cases hnew
    · exact hnew
  have hlength : (w.dismissHelpers pause).helpers.length = w.helpers.length := List.length_map _
  simp only [load]
  omega

omit [Clock τ] [Wait ω] [Spans ω τ] in
/-- There is never much to do for a run that sleeps. -/
theorem Guarded.toRise_le (h : Guarded (.held : Point ω) w)
    (hasleep : w.run.phase.isAsleep = true) : 4 ≤ w.toRise ∧ w.toRise ≤ 9 := by
  have hnew : w.helpers.countP Helper.isNew ≤ w.helpers.length := List.countP_le_length
  cases hphase : w.run.phase with
  | sleeping pause due =>
      obtain ⟨hfew, _⟩ := guardedIn_of_phase hphase h.guards
      simp only [toRise, load, hphase, Phase.weight]
      omega
  | tidying pause defect =>
      obtain ⟨hfew, _⟩ := guardedIn_of_phase hphase h.guards
      simp only [toRise, load, hphase, Phase.weight]
      omega
  | created => rw [hphase] at hasleep; cases hasleep
  | querying number due => rw [hphase] at hasleep; cases hasleep
  | sending ticket event => rw [hphase] at hasleep; cases hasleep
  | ended how => rw [hphase] at hasleep; cases hasleep

omit [Wait ω] [Spans ω τ] in
/-- When a watch has to end, a helper that stays after a step looked for the first time. -/
theorem Guarded.load_stepHelper_lt (h : Guarded (.held : Point ω) w) {position : Nat}
    {helper : Helper τ} (hthere : w.helpers[position]? = some helper)
    (hgo : w.helperCanGo helper = true) : (w.stepHelper position helper).load < w.load := by
  refine World.load_stepHelper_lt hthere fun helper' hlook => ?_
  obtain ⟨hwithdrawn, hstays⟩ := stays_of_lookHelper hlook
  have hunarmed : helper.armed = none := by
    cases harmed : helper.armed with
    | none => rfl
    | some timer =>
        have htimer := h.alarms helper (List.mem_of_getElem? hthere) timer harmed
        simp only [World.helperCanGo, hwithdrawn, harmed, Bool.false_or] at hgo
        cases hstays with
        | unstopped guards unstopped => simp [guards, unstopped] at hgo
        | unfired guards unfired =>
            rw [guards, World.alarm] at htimer
            simp only [Cancellation.hasFired, Cancellation.deadlineExceeded,
              Bool.or_eq_false_iff] at unfired
            simp [guards, htimer, unfired.1] at hgo
            simp [unfired.1, hgo] at unfired
  refine ⟨by simp [Helper.isNew, hwithdrawn, hunarmed], ?_⟩
  cases hstays <;> simp [Helper.isNew]

/-- Each step of a sleeping run that has to end, or of one of its helpers, brings it nearer to its
rising, and nothing else takes it back. -/
theorem Guarded.toRise_act {action : Action τ} (h : Guarded (.held : Point ω) w)
    (hasleep : w.run.phase.isAsleep = true) (hmust : w.MustEnd)
    (hact : w.act? plan action = some w') (hstill : w'.run.phase.isAsleep = true) :
    w'.now = w.now ∧ w'.toRise + action.isOwn.toNat ≤ w.toRise := by
  cases acts_of_act? hact with
  | run hgo =>
      cases hphase : w.run.phase with
      | created => rw [hphase] at hasleep; cases hasleep
      | querying number due => rw [hphase] at hasleep; cases hasleep
      | sending ticket event => rw [hphase] at hasleep; cases hasleep
      | ended how => rw [hphase] at hasleep; cases hasleep
      | sleeping pause due =>
          have hwoken : w.stepRun plan = (w.dismissHelpers pause).goTo (.tidying pause none) := by
            simp only [stepRun, hphase]
          have hload : (w.stepRun plan).load ≤ w.load := by
            rw [hwoken]
            exact w.load_dismissHelpers_le pause
          refine ⟨by rw [hwoken]; rfl, ?_⟩
          have hbefore : w.run.phase.weight = 5 := by
            rw [hphase]
            rfl
          have hafter : (w.stepRun plan).run.phase.weight = 4 := by
            rw [hwoken]
            rfl
          simp only [toRise, hbefore, hafter, Action.isOwn, Bool.toNat_true]
          omega
      | tidying pause defect =>
          cases defect with
          | some d => rw [hphase] at hasleep; cases hasleep
          | none =>
              have hrises : Rises plan w (w.stepRun plan) := rises_stepRun hphase hmust
              rw [hrises.isAsleep_eq] at hstill
              cases hstill
  | @helper position helper hthere hgo =>
      have hload := h.load_stepHelper_lt hthere hgo
      refine ⟨rfl, ?_⟩
      have hphase : (w.stepHelper position helper).run.phase = w.run.phase := rfl
      simp only [toRise, hphase, Action.isOwn, Bool.toNat_true]
      omega
  | passTime hsettled _ _ =>
      obtain ⟨action, hown, hcan⟩ := h.exists_own plan hasleep hmust
      rw [isSettled_of_own hown hcan] at hsettled
      cases hsettled
  | serve _ => exact ⟨rfl, Nat.le_refl _⟩
  | @trigger t => cases t <;> exact ⟨rfl, Nat.le_refl _⟩
  | kill _ =>
      rw [World.kill]
      split <;> exact ⟨rfl, Nat.le_refl _⟩
  | ask => exact ⟨rfl, Nat.le_refl _⟩
  | withdraw => exact ⟨rfl, Nat.le_refl _⟩

end World

end Vigil.Watch
