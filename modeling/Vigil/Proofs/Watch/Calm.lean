import Vigil.Proofs.Watch.Heed
import Vigil.Proofs.Watch.Posting
import Vigil.Proofs.Watch.Transcript

/-!
# A watch that nobody disturbs

Nobody gives a signal, cancels the task of the run or takes back a request: the consumers receive,
and that is all.  Then the run goes its way.  It never aborts, none of its offers is turned down,
and the helpers of its pauses set no timers of their own.
-/

namespace Vigil.Watch

open Log (Note)
open Vigil.Stream (Denial Reply Traffic)
open Vigil.Stream.Traffic (Bystanding)

variable {τ ω : Type}

/-- Neither the service nor the hook of a watch gives a signal. -/
structure Plan.Unsignalled (plan : Plan τ ω) : Prop where
  services : ∀ number, (plan.services number).triggers = []
  hook : ∀ hook ∈ plan.hook, ∀ snapshot t, hook snapshot ≠ .trigger t

/-- Nobody disturbs the watch: consumers do nothing but come to receive. -/
def Action.IsCalm : Action τ → Prop
  | .trigger _ => False
  | .kill => False
  | .withdraw _ => False
  | .ask _ request => request.receives = true
  | _ => True

theorem Action.IsCalm.tame {action : Action τ} (h : action.IsCalm) : Tame True action := by
  have honly : action.OnlyReceives := by
    cases action with
    | ask consumer request => exact h
    | _ => trivial
  exact ⟨honly.offersNothing, fun _ => honly⟩

namespace World

/-! ### What surrounds a run -/

/-- What the run of a watch finds around it besides its stream: the signals and the helpers. -/
def surroundings (w : World τ ω) : Cancellation τ × Bool × List (Helper τ) :=
  (w.cancellation, w.stopped, w.helpers)

section Surroundings

variable (w : World τ ω)

@[simp]
theorem surroundings_record (deed : Deed τ ω) : (w.record deed).surroundings = w.surroundings := rfl

@[simp]
theorem surroundings_note (note : Note) : (w.note note).surroundings = w.surroundings := rfl

@[simp]
theorem surroundings_noteAll (notes : List Note) :
    (w.noteAll notes).surroundings = w.surroundings := by
  induction notes generalizing w with
  | nil => rfl
  | cons note notes ih => exact (ih (w.note note)).trans (w.surroundings_note note)

@[simp]
theorem surroundings_goTo (phase : Phase τ) : (w.goTo phase).surroundings = w.surroundings := rfl

@[simp]
theorem surroundings_finish (how : Ending) : (w.finish how).surroundings = w.surroundings := rfl

@[simp]
theorem surroundings_shut : w.shut.surroundings = w.surroundings := by
  rw [shut]
  split <;> rfl

@[simp]
theorem surroundings_send (event : Event τ) : (w.send event).surroundings = w.surroundings := rfl

@[simp]
theorem surroundings_openClient (plan : Plan τ ω) :
    (w.openClient plan).surroundings = w.surroundings := by
  rw [openClient]
  split_ifs <;> rfl

@[simp]
theorem surroundings_closeClient (plan : Plan τ ω) :
    (w.closeClient plan).surroundings = w.surroundings := by
  rw [closeClient]
  split_ifs <;> rfl

theorem surroundings_withAnswer {plan : Plan τ ω} (hplan : plan.Unsignalled) (number : Nat) :
    (w.withAnswer plan number).surroundings = w.surroundings := by
  simp [withAnswer, hplan.services number]

theorem surroundings_callHook {plan : Plan τ ω} (hplan : plan.Unsignalled)
    (snapshot : Snapshot τ) : (w.callHook plan snapshot).surroundings = w.surroundings := by
  rw [callHook]
  cases hhook : plan.hook with
  | none => rfl
  | some hook =>
      simp only
      cases hreaction : hook snapshot with
      | record => rfl
      | fail f => rfl
      | trigger t => exact absurd hreaction (hplan.hook hook hhook snapshot t)

theorem surroundings_withHook {plan : Plan τ ω} (hplan : plan.Unsignalled)
    (snapshot : Snapshot τ) : (w.withHook plan snapshot).surroundings = w.surroundings :=
  (surroundings_noteAll _ _).trans (w.surroundings_callHook hplan snapshot)

variable {w} in
theorem Choke.surroundings [Clock τ] [Wait ω] {plan : Plan τ ω} {w' : World τ ω} {p : Point ω}
    {d : Defect} (h : Choke plan w p w' d) (hplan : plan.Unsignalled) :
    w'.surroundings = w.surroundings := by
  cases h with
  | complaint _ _ _ _ => exact w.surroundings_callHook hplan _
  | grace _ _ _ _ _ => exact w.surroundings_withHook hplan _
  | interrupt _ _ _ => exact w.surroundings_closeClient plan
  | _ => rfl

end Surroundings

end World

/-! ### Calm -/

/-- Results that went on have not come to the last. -/
theorem Matches.length_le [Clock τ] {plan : Plan τ ω} {last : Nat} {events : List (Event τ)}
    {readings : List (Reading τ)} (h : Matches plan events readings) (hplan : Conclusive plan last)
    (hnumbered : ∀ number r, readings[number]? = some r → r.result = plan.result number) :
    readings.length ≤ last := by
  have haccount : Account plan false readings 0 events [] :=
    h.account (Nat.zero_le _) (Nat.zero_le 1) nofun
  by_contra hlong
  have hlt : last < events.length := by
    rw [h.length_eq]
    omega
  have hevent : events[last]? = some events[last] := List.getElem?_eq_getElem hlt
  have hterminal := hplan.final _ (haccount.verdict_eq hnumbered hevent)
  rw [Event.isTerminal_untimed, h.going _ (List.getElem_mem hlt)] at hterminal
  cases hterminal

/-- Only the newest result can be the last. -/
theorem Covers.length_le [Clock τ] {plan : Plan τ ω} {last asked : Nat} {events : List (Event τ)}
    {readings : List (Reading τ)} (h : Covers plan readings asked events)
    (hplan : Conclusive plan last)
    (hnumbered : ∀ number r, readings[number]? = some r → r.result = plan.result number) :
    readings.length ≤ last + 1 := by
  cases h with
  | all behind few => exact Nat.le_succ_of_le (behind.length_le hplan hnumbered)
  | allButNewest split behind few =>
      subst split
      have hearlier := behind.length_le hplan fun number r hr => hnumbered number r
        ((List.getElem?_append_left (List.getElem?_eq_some_iff.mp hr).1).trans hr)
      simpa using hearlier

theorem Kept.result_eq {plan : Plan τ ω} {b : Books τ} (h : Kept plan True b) (number : Nat)
    (r : Reading τ) (hr : b.readings[number]? = some r) : r.result = plan.result number :=
  (h.numbered number r hr).2

/-- Nobody gave a signal, and the run has not aborted. -/
structure Serene (plan : Plan τ ω) (w : World τ ω) : Prop where
  unasked : w.cancellation = ⟨false, none⟩
  unstopped : w.stopped = false
  alive : w.run.killed = false
  loyal : ∀ event ∈ w.traffic.accepted, ¬IsAbort plan event
  /-- No helper set a timer. -/
  unarmed : ∀ h ∈ w.helpers, h.armed.getD none = none

/-- What holds while the run is held up in a phase: its offer was not turned down, and the helpers
of a pause that is over are about to leave. -/
def CalmIn (plan : Plan τ ω) (w : World τ ω) : Phase τ → Prop
  | .sending ticket event =>
      (w.traffic.replyTo? (.run ticket) = none ∨ w.traffic.replyTo? (.run ticket) = some .sent) ∧
        ¬IsAbort plan event
  | .tidying pause _ => ∀ h ∈ w.helpers, h.pause = pause → h.withdrawn = true
  | _ => True

def CalmAt (plan : Plan τ ω) (w : World τ ω) : Point ω → Prop
  | .held => CalmIn plan w w.run.phase
  | _ => True

/-- Helpers that are told to leave keep their timers. -/
theorem World.unarmed_dismissHelpers {w : World τ ω}
    (h : ∀ helper ∈ w.helpers, helper.armed.getD none = none) (pause : Nat) :
    ∀ helper ∈ (w.dismissHelpers pause).helpers, helper.armed.getD none = none := by
  intro helper hhelper
  obtain ⟨original, horiginal, rfl⟩ := List.mem_map.mp hhelper
  split_ifs <;> exact h original horiginal

theorem World.withdrawn_dismissHelpers (w : World τ ω) (pause : Nat) :
    ∀ helper ∈ (w.dismissHelpers pause).helpers, helper.pause = pause →
      helper.withdrawn = true := by
  intro helper hhelper hpause
  obtain ⟨original, horiginal, rfl⟩ := List.mem_map.mp hhelper
  split_ifs at hpause ⊢ with hsame
  · rfl
  · exact absurd hpause hsame

section Calm

variable [Clock τ] [Wait ω] [Spans ω τ]

/-- The invariant of a watch that nobody disturbs. -/
structure Calm (plan : Plan τ ω) (point : Point ω) (w : World τ ω) : Prop where
  sound : Sound plan True point w.books
  serene : Serene plan w
  stage : CalmAt plan w point

variable {plan : Plan τ ω} {last : Nat} {w w' : World τ ω} {p p' : Point ω}

omit [Wait ω] [Spans ω τ] in
theorem Serene.not_mustEnd (h : Serene plan w) : ¬w.MustEnd := by
  rw [World.MustEnd, World.Signalled, h.unasked, h.unstopped]
  simp

omit [Wait ω] [Spans ω τ] in
/-- A helper that looks either leaves or settles down without a timer. -/
theorem Serene.lookHelper_eq {helper helper' : Helper τ} (h : Serene plan w)
    (hlook : w.lookHelper helper = some helper') :
    helper' = { helper with armed := some none } ∧ helper.withdrawn = false := by
  have hnever : w.cancellation.look w.now = .until none := by
    simp [Cancellation.look, Cancellation.hasFired, Cancellation.deadlineExceeded,
      Cancellation.timeLeft, h.unasked]
  simp only [World.lookHelper, hnever, h.unstopped, Bool.false_eq_true, if_false] at hlook
  cases hwithdrawn : helper.withdrawn with
  | true => simp [hwithdrawn] at hlook
  | false =>
      simp only [hwithdrawn, Bool.false_eq_true, if_false] at hlook
      cases hguards : helper.guards with
      | cancellation =>
          simp only [hguards, Option.some.injEq] at hlook
          exact ⟨hlook.symm, rfl⟩
      | stop =>
          simp only [hguards, Option.some.injEq] at hlook
          exact ⟨hlook.symm, rfl⟩

omit [Wait ω] [Spans ω τ] in
/-- What was observed says nothing of an abort. -/
theorem not_isAbort_of_outcome {instant : τ} {result : Result} {event : Event τ}
    (h : outcome plan.config plan.strategy instant result = some event) : ¬IsAbort plan event := by
  intro habort
  cases result with
  | cancelled => cases h
  | failure f =>
      simp only [outcome] at h
      split at h
      · split_ifs at h <;> (rw [← Option.some.inj h] at habort; cases habort)
      · rw [← Option.some.inj h] at habort
        cases habort
      · cases h
  | payload payload =>
      simp only [outcome] at h
      split_ifs at h
      · split at h
        · split_ifs at h <;> (rw [← Option.some.inj h] at habort; cases habort)
        · cases h
      · rw [← Option.some.inj h] at habort
        cases habort

namespace Calm

/-- No signal is given and no timer set, and nothing is accepted. -/
theorem of_helpers (h : Calm plan p w) (hmove : World.Move plan w p p' w')
    (hcancellation : w'.cancellation = w.cancellation) (hstopped : w'.stopped = w.stopped)
    (hunarmed : ∀ helper ∈ w'.helpers, helper.armed.getD none = none)
    (haccepted : w'.traffic.accepted = w.traffic.accepted) (hstage : CalmAt plan w' p') :
    Calm plan p' w' where
  sound := sound_stable hmove h.sound
  serene :=
    { unasked := hcancellation.trans h.serene.unasked
      unstopped := hstopped.trans h.serene.unstopped
      alive := hmove.killed_eq.trans h.serene.alive
      loyal := by
        rw [haccepted]
        exact h.serene.loyal
      unarmed := hunarmed }
  stage := hstage

/-- Nothing around the run changes, and nothing is accepted. -/
theorem of_move (h : Calm plan p w) (hmove : World.Move plan w p p' w')
    (hsurroundings : w'.surroundings = w.surroundings)
    (haccepted : w'.traffic.accepted = w.traffic.accepted) (hstage : CalmAt plan w' p') :
    Calm plan p' w' := by
  simp only [World.surroundings, Prod.mk.injEq] at hsurroundings
  obtain ⟨hcancellation, hstopped, hhelpers⟩ := hsurroundings
  refine h.of_helpers hmove hcancellation hstopped ?_ haccepted hstage
  rw [hhelpers]
  exact h.serene.unarmed

/-- The helpers of a pause come unarmed. -/
theorem unarmed_withPause (h : Calm plan p w) (delay : ω) :
    ∀ helper ∈ (w.withPause delay).helpers, helper.armed.getD none = none := by
  intro helper hhelper
  rcases List.mem_append.mp hhelper with hold | hnew
  · exact h.serene.unarmed helper hold
  · simp only [List.mem_cons, List.not_mem_nil, or_false] at hnew
    rcases hnew with rfl | rfl <;> rfl

/-- The newest result was not that the query cancelled the task. -/
theorem result_ne_cancelled {number : Nat} {result : Result} (hplan : Conclusive plan last)
    (h : Calm plan (.answered number result) w) : result ≠ .cancelled := by
  rintro rfl
  obtain ⟨_, hanswered⟩ := h.sound.stage
  obtain ⟨earlier, hreadings, hbehind⟩ := hanswered.newest
  have hnumbered := h.sound.kept.result_eq
  have hcovers : Covers plan w.books.readings w.books.asked w.traffic.accepted :=
    .allButNewest hreadings hbehind hanswered.few
  have hfew := hcovers.length_le hplan hnumbered
  rw [hreadings] at hnumbered hfew
  have hnewest := hnumbered earlier.length _ List.getElem?_concat_length
  have hreadable := hplan.readable earlier.length (by simpa using hfew)
  rw [← hnewest] at hreadable
  exact hreadable

/-- Every move of a run that nobody disturbs leaves it so. -/
theorem move (hquiet : plan.Unsignalled) (hplan : Conclusive plan last)
    (hmove : World.Move plan w p p' w') (h : Calm plan p w) : Calm plan p' w' := by
  have hstill {w₁ : World τ ω} (htraffic : w₁.books.traffic = w.books.traffic) :
      w₁.traffic.accepted = w.traffic.accepted := congrArg Traffic.accepted htraffic
  have hdead (hkilled : w.run.killed = true) : False := by
    rw [h.serene.alive] at hkilled
    cases hkilled
  have hshut (w₁ : World τ ω) (hbooks : w₁.books = w.books) :
      w₁.shut.traffic.accepted = w.traffic.accepted :=
    w₁.shut_accepted.trans (hstill (congrArg Books.traffic hbooks))
  have hmoved := hmove
  cases hmove with
  | skip phase killed => exact (hdead killed).elim
  | start phase alive opening dated =>
      exact h.of_move hmoved rfl (hstill (by rw [World.books_withStart])) trivial
  | mute phase alive cause => exact h.of_move hmoved rfl rfl trivial
  | @choke _ broken d cause =>
      exact h.of_move hmoved (by simp [World.breakDown, cause.surroundings hquiet])
        (hshut broken cause.books) trivial
  | abort reason dated =>
      rw [World.abort?_eq_none.mpr h.serene.not_mustEnd] at reason
      cases reason
  | ask noReason =>
      have hsurroundings : (w.withQuery plan).surroundings = w.surroundings :=
        (w.record (.query w.run.queries)).surroundings_openClient plan
      exact h.of_move hmoved hsurroundings (hstill (by rw [World.books_withQuery])) trivial
  | wait duration => exact h.of_move hmoved rfl rfl trivial
  | atOnce duration => exact h.of_move hmoved rfl rfl trivial
  | inTime phase alive reached => exact h.of_move hmoved rfl rfl trivial
  | interrupt phase killed dated => exact (hdead killed).elim
  | answer =>
      exact h.of_move hmoved (w.surroundings_withAnswer hquiet _)
        (hstill (by rw [World.books_withAnswer])) trivial
  | revoke dated => exact absurd rfl (h.result_ne_cancelled hplan)
  | @fail number result notes d outcome dated =>
      exact h.of_move hmoved (by simp [World.breakDown]) (hshut _ (w.books_noteAll notes)) trivial
  | @publish number result notes event outcome dated =>
      have htraffic : (w.noteAll notes).traffic = w.traffic :=
        congrArg Books.traffic (w.books_noteAll notes)
      have hsends : (w.noteAll notes).run.sends = w.run.sends :=
        congrArg (fun b => b.run.sends) (w.books_noteAll notes)
      have haccepted : ((w.noteAll notes).send event).traffic.accepted = w.traffic.accepted := by
        rw [World.send_accepted, htraffic]
      have hfresh :
          ((w.noteAll notes).send event).traffic.replyTo? (.run (w.noteAll notes).run.sends) =
            none := by
        rw [Stream.Traffic.replyTo?_of_finished_eq (World.send_finished _ _), htraffic, hsends]
        exact h.sound.kept.fresh w.run.sends (Nat.le_refl _)
      exact h.of_move hmoved (by simp) haccepted
        ⟨.inl hfresh, not_isAbort_of_outcome (outcome_of_observation number outcome)⟩
  | finish phase reply terminal =>
      exact h.of_move hmoved (by simp) (hshut w rfl) trivial
  | @grace ticket snapshot line phase reply first sleeping dated =>
      have hsurroundings : ((w.withHook plan snapshot).withGrace line).surroundings =
          w.surroundings :=
        w.surroundings_withHook hquiet snapshot
      exact h.of_move hmoved hsurroundings
        (hstill (by rw [World.books_withGrace, World.books_withHook])) trivial
  | @progress ticket snapshot phase reply later dated =>
      exact h.of_move hmoved (w.surroundings_withHook hquiet snapshot)
        (hstill (by rw [World.books_withHook])) trivial
  | retry phase reply terminal noSnapshot => exact h.of_move hmoved rfl rfl trivial
  | refuse phase reply =>
      obtain ⟨hsending, _, _⟩ := held_of_phase phase h.sound.stage
      exact absurd trivial (hsending.of_denied reply).2.2.1
  | retract phase answered unsent undenied dated =>
      have hstage : CalmIn plan w w.run.phase := h.stage
      rw [phase] at hstage
      rcases hstage.1 with hnone | hsent
      · rw [answered] at hnone
        cases hnone
      · exact absurd (Option.some.inj (answered.symm.trans hsent)) unsent
  | @sleep delay span positive length =>
      exact h.of_helpers hmoved rfl rfl (h.unarmed_withPause delay) rfl trivial
  | @overrun delay positive length =>
      exact h.of_helpers hmoved rfl rfl
        (World.unarmed_dismissHelpers (h.unarmed_withPause delay) _) rfl
        (World.withdrawn_dismissHelpers _ _)
  | hurry positive => exact h.of_move hmoved rfl rfl trivial
  | wake phase reason =>
      exact h.of_helpers hmoved rfl rfl (World.unarmed_dismissHelpers h.serene.unarmed _) rfl
        (World.withdrawn_dismissHelpers _ _)
  | leave phase tidy killed dated => exact (hdead killed).elim
  | collapse phase tidy alive =>
      exact h.of_move hmoved (by simp [World.breakDown]) (hshut w rfl) trivial
  | rise phase tidy alive => exact h.of_move hmoved rfl rfl trivial

/-! ### Everything around the run -/

theorem calmIn_of_phase {phase : Phase τ} (h : Calm plan (.held : Point ω) w)
    (hphase : w.run.phase = phase) : CalmIn plan w phase := by
  rw [← hphase]
  exact h.stage

/-- The offer of the run, if it is answered at all, is met. -/
theorem serve (h : Calm plan (.held : Point ω) w) (position : Nat) :
    Calm plan (.held : Point ω) { w with traffic := w.traffic.serveAt position } := by
  have hheld : Held plan True w.books w.run.phase := h.sound.stage
  have hcalm : CalmIn plan w w.run.phase := h.stage
  have hsound : Sound plan True (.held : Point ω)
      { w.books with traffic := w.traffic.serveAt position } := h.sound.serve position
  have hserene (hloyal : ∀ event ∈ (w.traffic.serveAt position).accepted, ¬IsAbort plan event) :
      Serene plan { w with traffic := w.traffic.serveAt position } :=
    ⟨h.serene.unasked, h.serene.unstopped, h.serene.alive, hloyal, h.serene.unarmed⟩
  cases Stream.Traffic.serveAt_concern h.sound.kept.sender position with
  | bystanding others =>
      have haccepted : (w.traffic.serveAt position).accepted = w.traffic.accepted :=
        others.accepted
      refine ⟨hsound, hserene (by rw [haccepted]; exact h.serene.loyal), ?_⟩
      change CalmIn plan _ w.run.phase
      cases hphase : w.run.phase with
      | sending ticket event =>
          obtain ⟨hreply, hloyal⟩ := h.calmIn_of_phase hphase
          have hsame : (w.traffic.serveAt position).replyTo? (.run ticket) =
              w.traffic.replyTo? (.run ticket) := others.replyTo? ticket
          rw [← hsame] at hreply
          exact ⟨hreply, hloyal⟩
      | tidying pause defect => exact h.calmIn_of_phase hphase
      | _ => trivial
  | @sent ticket event rest offers left finished unclosed accepted =>
      obtain ⟨hphase, rfl, _, hreply, _⟩ := Held.sending_of_offer hheld offers
      rw [hphase] at hcalm
      have haccepted : (w.traffic.serveAt position).accepted = w.traffic.accepted ++ [event] :=
        accepted
      refine ⟨hsound, hserene ?_, ?_⟩
      · rw [haccepted]
        intro e he
        rcases List.mem_append.mp he with he | he
        · exact h.serene.loyal e he
        · rw [List.mem_singleton.mp he]
          exact hcalm.2
      · change CalmIn plan _ w.run.phase
        rw [hphase]
        exact ⟨.inr (Stream.Traffic.replyTo?_append_self hreply finished), hcalm.2⟩
  | denied offers left finished closed accepted =>
      obtain ⟨_, _, _, _, hunclosed, _⟩ := Held.sending_of_offer hheld offers
      exact absurd ((hunclosed trivial).symm.trans closed) Bool.false_ne_true
  | withdrawn offers left finished accepted =>
      obtain ⟨_, _, hkilled, _⟩ := Held.sending_of_offer hheld offers
      exact absurd (h.serene.alive.symm.trans hkilled) Bool.false_ne_true

theorem helper {position : Nat} {helper : Helper τ} (h : Calm plan (.held : Point ω) w)
    (hthere : w.helpers[position]? = some helper) :
    Calm plan (.held : Point ω) (w.stepHelper position helper) := by
  -- each helper that is left is an old one, or the one that looked
  have hleft : ∀ other ∈ (w.stepHelper position helper).helpers, other ∈ w.helpers ∨
      other = { helper with armed := some none } := by
    intro other hother
    simp only [World.stepHelper] at hother
    split at hother
    · rename_i helper' hlook
      obtain ⟨rfl, _⟩ := h.serene.lookHelper_eq hlook
      exact List.mem_or_eq_of_mem_set hother
    · exact .inl (List.mem_of_mem_eraseIdx hother)
  have hmember : helper ∈ w.helpers := List.mem_of_getElem? hthere
  refine ⟨h.sound, ⟨h.serene.unasked, h.serene.unstopped, h.serene.alive, h.serene.loyal, ?_⟩, ?_⟩
  · intro other hother
    rcases hleft other hother with hold | rfl
    · exact h.serene.unarmed other hold
    · rfl
  · change CalmIn plan _ w.run.phase
    cases hphase : w.run.phase with
    | sending ticket event => exact h.calmIn_of_phase hphase
    | tidying pause defect =>
        have hdismissed := h.calmIn_of_phase hphase
        intro other hother hpause
        rcases hleft other hother with hold | rfl
        · exact hdismissed other hold hpause
        · exact hdismissed helper hmember hpause
    | _ => trivial

/-- Whatever happens to a watch that nobody disturbs leaves it so. -/
theorem act (hquiet : plan.Unsignalled) (hplan : Conclusive plan last) {action : Action τ}
    (hcalm : action.IsCalm) (hact : w.act? plan action = some w')
    (h : Calm plan (.held : Point ω) w) : Calm plan (.held : Point ω) w' := by
  have hsound := sound_invariant.act hcalm.tame hact h.sound
  cases World.acts_of_act? hact with
  | run hgo =>
      have hstable : World.Stable plan (Calm plan) := fun _ _ _ _ hmove hbefore =>
        hbefore.move hquiet hplan hmove
      exact hstable.stepRun hgo h
  | helper hthere _ => exact h.helper hthere
  | serve _ => exact h.serve _
  | passTime _ _ _ =>
      exact ⟨hsound, ⟨h.serene.unasked, h.serene.unstopped, h.serene.alive, h.serene.loyal,
        h.serene.unarmed⟩, h.stage⟩
  | ask =>
      exact ⟨hsound, ⟨h.serene.unasked, h.serene.unstopped, h.serene.alive, h.serene.loyal,
        h.serene.unarmed⟩, h.stage⟩
  | trigger => exact hcalm.elim
  | kill _ => exact hcalm.elim
  | withdraw => exact hcalm.elim

theorem actAll (hquiet : plan.Unsignalled) (hplan : Conclusive plan last)
    {actions : List (Action τ)} (hcalm : ∀ action ∈ actions, action.IsCalm)
    (hact : w.actAll? plan actions = some w') (h : Calm plan (.held : Point ω) w) :
    Calm plan (.held : Point ω) w' := by
  induction actions generalizing w with
  | nil =>
      cases hact
      exact h
  | cons action actions ih =>
      obtain ⟨middle, hmiddle, hact⟩ := World.exists_of_actAll?_cons hact
      refine ih (fun a ha => hcalm a (List.mem_cons_of_mem _ ha)) hact ?_
      exact h.act hquiet hplan (hcalm action List.mem_cons_self) hmiddle

end Calm

theorem calm_start {stream : Stream (Event τ)} (hopen : stream.closed = false) (now : τ) :
    Calm plan (.held : Point ω) (World.start now ⟨false, none⟩ false stream : World τ ω) where
  sound := sound_start hopen now _ _
  serene := ⟨rfl, rfl, rfl, nofun, nofun⟩
  stage := trivial

end Calm

end Vigil.Watch
