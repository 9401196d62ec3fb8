import Vigil.Proofs.Eks.Clients
import Vigil.Proofs.Watch.Guards

/-!
# Nothing outlives a pause

A pause calls two helpers, and a watch may pause any number of times.  A helper that stayed behind
would never be seen in the events, and there would be one more of them with each poll.  Here it is
shown that none does: whatever ends a pause, and however often the task of the run is cancelled in
the meantime, the run goes on only when both helpers have left.
-/

namespace Vigil.Watch

variable {τ ω : Type}

/-- The pause that a run is in. -/
def Phase.pause? : Phase τ → Option Nat
  | .sleeping pause _ => some pause
  | .tidying pause _ => some pause
  | _ => none

namespace World

/-- The pause that a run is in at a point of its control flow. -/
def pauseAt? (w : World τ ω) : Point ω → Option Nat
  | .held => w.run.phase.pause?
  | _ => none

/-- The pauses that helpers were called for, and what they guard them against. -/
def posts (w : World τ ω) : List (Nat × Guard) := w.helpers.map fun h => (h.pause, h.guards)

theorem posts_dismissHelpers (w : World τ ω) (pause : Nat) :
    (w.dismissHelpers pause).posts = w.posts := by
  rw [posts, dismissHelpers, List.map_map]
  refine List.map_congr_left fun h _ => ?_
  rw [Function.comp_apply]
  split_ifs <;> rfl

theorem posts_withPause {w : World τ ω} (hnone : w.helpers = []) (delay : ω) :
    (w.withPause delay).posts =
      [(w.run.pauses, .cancellation), (w.run.pauses, .stop)] := by
  have hhelpers : (w.withPause delay).helpers =
      w.helpers ++ [⟨w.run.pauses, .cancellation, none, false⟩,
        ⟨w.run.pauses, .stop, none, false⟩] := rfl
  rw [posts, hhelpers, hnone]
  rfl

/-! ### Whom a helper belongs to -/

theorem own_of_guardedIn {helpers : List (Helper τ)} {phase : Phase τ}
    (h : GuardedIn helpers phase) :
    helpers.length ≤ 2 ∧ ∀ helper ∈ helpers, phase.pause? = some helper.pause := by
  have hnobody (hnone : helpers = []) :
      helpers.length ≤ 2 ∧ ∀ helper ∈ helpers, phase.pause? = some helper.pause := by
    rw [hnone]
    exact ⟨Nat.zero_le 2, nofun⟩
  cases phase with
  | sleeping pause due =>
      exact ⟨h.1, fun helper hhelper => congrArg some (h.2 helper hhelper).1.symm⟩
  | tidying pause defect =>
      exact ⟨h.1, fun helper hhelper => congrArg some (h.2 helper hhelper).1.symm⟩
  | created => exact hnobody h
  | querying number due => exact hnobody h
  | sending ticket event => exact hnobody h
  | ended how => exact hnobody h

theorem own_of_guardedAt {w : World τ ω} {p : Point ω} (h : GuardedAt w p) :
    w.helpers.length ≤ 2 ∧ ∀ helper ∈ w.helpers, w.pauseAt? p = some helper.pause := by
  cases p with
  | held => exact own_of_guardedIn h
  | _ =>
      have hnone : w.helpers = [] := h
      rw [hnone]
      exact ⟨Nat.zero_le 2, nofun⟩

variable [Clock τ] [Wait ω] [Spans ω τ] {plan : Plan τ ω} {w w' : World τ ω}

/-- On any clock, and whatever happens, a run has helpers in its pauses only. -/
theorem guardedAt_invariant : Invariant plan (fun _ => True) fun point w => GuardedAt w point where
  moves := guarded_stable
  helper there _ before := guardedAt_stepHelper there before
  serve _ before := before
  passTime _ _ _ before := before
  trigger {w t} before := by cases t <;> exact before
  kill _ before := guardedAt_kill before
  ask _ before := before
  withdraw _ before := before

theorem guardedAt_passes {p : Point ω} (h : GuardedAt w (.held : Point ω))
    (hpasses : w.Passes plan p w') : GuardedAt w' p := by
  induction hpasses with
  | here => exact h
  | move before next ih => exact guarded_stable next ih

/-! ### Beginning and end of a pause -/

/-- A pause that begins calls its two helpers where nobody is. -/
theorem posts_of_pausing {delay : ω} (h : GuardedAt w (.pausing delay))
    (hmove : Move plan w (.pausing delay) .held w') :
    w'.pauseAt? (.held : Point ω) = some w.run.pauses ∧
      w'.posts = [(w.run.pauses, .cancellation), (w.run.pauses, .stop)] := by
  have hnone : w.helpers = [] := h
  cases hmove with
  | sleep _ _ => exact ⟨rfl, posts_withPause hnone delay⟩
  | overrun _ _ =>
      have hdismissed := (w.withPause delay).posts_dismissHelpers w.run.pauses
      exact ⟨rfl, hdismissed.trans (posts_withPause hnone delay)⟩
  | choke cause => cases cause

omit [Spans ω τ] in
/-- A run that breaks in a pause because it cannot log something was told that its task is
cancelled, and nobody is there any more. -/
theorem helpers_eq_nil_of_choke {pause : Nat} {p : Point ω} {d : Defect} (h : GuardedAt w p)
    (hchoke : Choke plan w p w' d) (hin : w.pauseAt? p = some pause) : w.helpers = [] := by
  cases hchoke with
  | leave phase tidy _ _ => exact helpers_eq_nil_of_tidy h phase tidy
  -- nothing else that it cannot log comes up in a pause
  | complaint phase _ _ _ | grace phase _ _ _ _ | interrupt phase _ _ | retract phase _ _ _ _ =>
      rw [pauseAt?, phase] at hin
      cases hin
  | _ => cases hin

/-- A move out of a pause is made when nobody is there any more. -/
theorem helpers_eq_nil_of_leaving {pause : Nat} {p p' : Point ω} (h : GuardedAt w p)
    (hmove : Move plan w p p' w') (hin : w.pauseAt? p = some pause)
    (hout : w'.pauseAt? p' ≠ some pause) : w.helpers = [] ∧ w'.helpers = [] := by
  have hafter := guarded_stable hmove h
  cases hmove with
  | leave phase tidy _ _ => exact ⟨helpers_eq_nil_of_tidy h phase tidy, hafter⟩
  | choke cause => exact ⟨helpers_eq_nil_of_choke h cause hin, hafter⟩
  | collapse phase tidy _ => exact ⟨helpers_eq_nil_of_tidy h phase tidy, hafter⟩
  | rise phase tidy _ => exact ⟨helpers_eq_nil_of_tidy h phase tidy, hafter⟩
  | wake phase _ =>
      -- the run only gets up, and is in the same pause
      rw [pauseAt?, phase] at hin
      exact absurd hin hout
  -- all other moves do not start in a pause
  | skip phase _ | start phase _ _ _ | mute phase _ _ | interrupt phase _ _ | refuse phase _
  | inTime phase _ _ | finish phase _ _ | grace phase _ _ _ _ | progress phase _ _ _
  | retry phase _ _ _ | retract phase _ _ _ _ =>
      rw [pauseAt?, phase] at hin
      cases hin
  | _ => cases hin

omit [Wait ω] [Spans ω τ] in
/-- A helper that was told to leave does so in its next step. -/
theorem stepHelper_of_withdrawn {h : Helper τ} (hleaves : h.withdrawn = true) (position : Nat) :
    w.stepHelper position h = { w with helpers := w.helpers.eraseIdx position } := by
  simp only [stepHelper, lookHelper, hleaves, if_true]

/-- Helpers that were all told to leave can leave one after the other. -/
theorem actAll?_of_withdrawn (plan : Plan τ ω) {helpers : List (Helper τ)}
    (hhelpers : w.helpers = helpers) (hleave : ∀ h ∈ helpers, h.withdrawn = true) :
    w.actAll? plan (List.replicate helpers.length (.helper 0)) = some { w with helpers := [] } := by
  induction helpers generalizing w with
  | nil =>
      cases w
      cases hhelpers
      rfl
  | cons first others ih =>
      have hfirst := hleave first List.mem_cons_self
      have hact : w.act? plan (.helper 0) = some { w with helpers := others } := by
        simp [act?, hhelpers, helperCanGo, hfirst, stepHelper_of_withdrawn hfirst]
      rw [List.length_cons, List.replicate_succ, actAll?, hact]
      exact ih rfl fun h hmem => hleave h (List.mem_cons_of_mem _ hmem)

/-- What is so of the helpers from where a run is held up until it is held up again. -/
structure Attended (plan : Plan τ ω) (w : World τ ω) : Prop where
  /-- There are two helpers at most, and they are those of the pause that the run is in.  So there
  are none when it is not in one: when it decides, queries, sends or pauses again, or is over. -/
  own : ∀ {p : Point ω} {w' : World τ ω}, w.Passes plan p w' →
    w'.helpers.length ≤ 2 ∧ ∀ h ∈ w'.helpers, w'.pauseAt? p = some h.pause
  /-- A pause begins where there are no helpers, and both that it has are its own. -/
  begins : ∀ {delay : ω} {w' w'' : World τ ω}, w.Passes plan (.pausing delay) w' →
    Move plan w' (.pausing delay) .held w'' →
      w'.helpers = [] ∧ w''.pauseAt? (.held : Point ω) = some w'.run.pauses ∧
        w''.posts = [(w'.run.pauses, .cancellation), (w'.run.pauses, .stop)]
  /-- A pause ends when both have left, whatever it is that ends it. -/
  ends : ∀ {pause : Nat} {p p' : Point ω} {w' w'' : World τ ω}, w.Passes plan p w' →
    Move plan w' p p' w'' → w'.pauseAt? p = some pause → w''.pauseAt? p' ≠ some pause →
      w'.helpers = [] ∧ w''.helpers = []
  /-- Once they are told to leave, nothing but their own steps is needed for the run to go on. -/
  leaves : ∀ {pause : Nat} {defect : Option Defect}, w.run.phase = .tidying pause defect →
    w.actAll? plan (List.replicate w.helpers.length (.helper 0)) =
        some { w with helpers := [] } ∧
      World.runCanGo { w with helpers := [] } = true

/-- Whatever happens to a watch, and in whichever order, no helper is left behind by a pause. -/
theorem nothing_outlives_pauses {now : τ} {cancellation : Cancellation τ} {stopped : Bool}
    {stream : Stream (Event τ)} {actions : List (Action τ)}
    (hact : (start now cancellation stopped stream).actAll? plan actions = some w) :
    Attended plan w := by
  have hheld : GuardedAt w (.held : Point ω) :=
    guardedAt_invariant.actAll (fun _ _ => trivial) hact rfl
  refine ⟨fun hpasses => ?_, fun hpasses hmove => ?_, fun hpasses hmove hin hout => ?_, ?_⟩
  · exact own_of_guardedAt (guardedAt_passes hheld hpasses)
  · have hpausing := guardedAt_passes hheld hpasses
    exact ⟨hpausing, posts_of_pausing hpausing hmove⟩
  · exact helpers_eq_nil_of_leaving (guardedAt_passes hheld hpasses) hmove hin hout
  · intro pause defect hphase
    obtain ⟨_, hown⟩ := guardedIn_of_phase hphase hheld
    refine ⟨actAll?_of_withdrawn plan rfl fun h hmem => (hown h hmem).2, ?_⟩
    simp [runCanGo, hphase, guarded]

end World

/-- A cluster that takes its time, asked about once a second. -/
def drowsy : Plan Int Int where
  config := ⟨"demo", .word (.cluster .active), [], 0, 1⟩
  strategy := Eks.clusterStrategy
  services _ := ⟨none, [], .response (.table [("cluster", .table [("status", .text "CREATING")])])⟩
  hook := none
  heard := true

/-- The second pause is over at the instant of the deadline, the watch is stopped, and the task of
the run is cancelled, once before it gets up and twice while it waits for its helpers. -/
def killedAtOnce : List (Action Int) :=
  [.run, .serve 0, .run, .helper 0, .helper 1, .passTime 1, .run, .helper 0, .helper 0, .run,
    .serve 0, .run, .helper 1, .helper 0, .passTime 2, .trigger .stop, .trigger .cancel, .kill,
    .run, .kill, .helper 1, .kill]

theorem World.nothing_outlives_pauses_of_killedAtOnce :
    ∃ w w' : World Int Int,
      (World.start 0 ⟨false, some 2⟩ false ⟨10, [], false⟩).actAll? drowsy killedAtOnce = some w ∧
      w.pauseAt? (.held : Point Int) = some 1 ∧ w.posts = [(1, .cancellation)] ∧
      w.runCanGo = false ∧ w.actAll? drowsy [.helper 0, .run] = some w' ∧
      w'.ending? = some .cancelled ∧ w'.helpers = [] ∧ w.Attended drowsy ∧
      w'.Attended drowsy := by
  obtain ⟨w, w', hact, hpause, hposts, hwaits, hgoes, hending, hgone⟩ : ∃ w w' : World Int Int,
      (World.start 0 ⟨false, some 2⟩ false ⟨10, [], false⟩).actAll? drowsy killedAtOnce = some w ∧
      w.pauseAt? (.held : Point Int) = some 1 ∧ w.posts = [(1, .cancellation)] ∧
      w.runCanGo = false ∧ w.actAll? drowsy [.helper 0, .run] = some w' ∧
      w'.ending? = some .cancelled ∧ w'.helpers = [] := ⟨_, _, rfl, rfl, rfl, rfl, rfl, rfl, rfl⟩
  have hall : (World.start 0 ⟨false, some 2⟩ false ⟨10, [], false⟩).actAll? drowsy
      (killedAtOnce ++ [.helper 0, .run]) = some w' := by
    rw [World.actAll?_append, hact]
    exact hgoes
  exact ⟨w, w', hact, hpause, hposts, hwaits, hgoes, hending, hgone,
    World.nothing_outlives_pauses hact, World.nothing_outlives_pauses hall⟩

end Vigil.Watch
