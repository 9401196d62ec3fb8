import Vigil.Proofs.Watch.BackPressure
import Vigil.Proofs.Watch.Farewell
import Vigil.Proofs.Watch.Guards

/-!
# A run that sleeps is woken

A pause is no reason to be late.  When a watch has to end while its run sleeps, the run is up at
the very same instant, asks no more, and says why it ends.  What it says is decided by the signals
and the clock at the moment at which it looks, and the cancellation goes before the stop signal.
It logs that first, so at an instant that no calendar shows it says nothing if somebody hears the
log.
-/

namespace Vigil.Stream.Traffic

variable {ε : Type} {ι : Type} [BEq ι] {t t' : Traffic ι ε}

/-- An answer that was given stands. -/
theorem replyTo?_of_prefix {id : ι} {reply : Reply ε} (h : t.finished <+: t'.finished)
    (hreply : t.replyTo? id = some reply) : t'.replyTo? id = some reply := by
  obtain ⟨later, hlater⟩ := h
  obtain ⟨answer, hfind, rfl⟩ := Option.map_eq_some_iff.mp hreply
  rw [replyTo?, ← hlater, List.find?_append, hfind, Option.some_or, Option.map_some]

end Vigil.Stream.Traffic

namespace Vigil.Watch

open Log (Note)
open Vigil.Number (Amount pow10)
open Vigil.Stream (Denial Reply Traffic)

variable {τ ω : Type}

/-! ### Why a watch ends -/

section Reason

variable [Clock τ]

/-- The event that a watch has to end with, by what its run finds when it looks. -/
inductive Justified (plan : Plan τ ω) (w : World τ ω) : Event τ → Prop
  | cancelled {exceeded : Bool} (fired : w.Fired)
      (deadline : exceeded = true ↔ w.cancellation.requested = false ∧
        ∃ due ∈ w.cancellation.deadline, Clock.reached w.now due = true) :
      Justified plan w (.cancelled (.cancelled plan.config.resource exceeded))
  | stopped (unfired : ¬w.Fired) (stopped : w.stopped = true) :
      Justified plan w (.stopped (.stopped plan.config.resource))

variable {plan : Plan τ ω} {w w' : World τ ω} {event : Event τ}

theorem World.deadlineExceeded_iff : w.cancellation.deadlineExceeded w.now = true ↔
    w.cancellation.requested = false ∧
      ∃ due ∈ w.cancellation.deadline, Clock.reached w.now due = true := by
  rw [Cancellation.deadlineExceeded]
  cases w.cancellation.requested <;> cases w.cancellation.deadline <;> simp

/-- What a run decides is justified. -/
theorem justified_of_abort? {note : Note} (h : w.abort? plan = some (note, event)) :
    Justified plan w event := by
  rw [World.abort?] at h
  split_ifs at h with hfired hstopped
  · obtain ⟨_, rfl⟩ := Prod.mk.inj (Option.some.inj h)
    exact .cancelled (World.hasFired_iff.mp hfired) World.deadlineExceeded_iff
  · obtain ⟨_, rfl⟩ := Prod.mk.inj (Option.some.inj h)
    exact .stopped (fun hfired' => hfired (World.hasFired_iff.mpr hfired')) hstopped

/-- Nothing else of a state enters. -/
theorem Justified.congr (h : Justified plan w event) (hnow : w'.now = w.now)
    (hcancellation : w'.cancellation = w.cancellation) (hstopped : w'.stopped = w.stopped) :
    Justified plan w' event := by
  have hfired : w'.Fired ↔ w.Fired := by rw [World.Fired, World.Fired, hnow, hcancellation]
  cases h with
  | cancelled fired deadline =>
      refine .cancelled (hfired.mpr fired) ?_
      rw [hnow, hcancellation]
      exact deadline
  | stopped unfired stopped =>
      exact .stopped (fun h => unfired (hfired.mp h)) (hstopped.trans stopped)

/-- What was observed is not of the kinds that say that a watch was aborted. -/
theorem kind_of_outcome {instant : τ} {result : Result}
    (h : outcome plan.config plan.strategy instant result = some event) :
    event.kind ≠ .cancelled ∧ event.kind ≠ .stopped := by
  cases result with
  | cancelled => cases h
  | failure f =>
      simp only [outcome] at h
      split at h
      · split_ifs at h <;> (obtain rfl := Option.some.inj h; simp [Event.kind])
      · obtain rfl := Option.some.inj h
        simp [Event.kind]
      · cases h
  | payload payload =>
      simp only [outcome] at h
      split_ifs at h
      · split at h
        · split_ifs at h <;> (obtain rfl := Option.some.inj h; simp [Event.kind])
        · cases h
      · obtain rfl := Option.some.inj h
        simp [Event.kind]

variable [Wait ω] [Spans ω τ]

/-- Where a run is held up with the news that it was aborted, the news is justified. -/
def JustifiedAt (plan : Plan τ ω) (w : World τ ω) : Point ω → Prop
  | .held => ∀ ticket event, w.run.phase = .sending ticket event →
      event.kind = .cancelled ∨ event.kind = .stopped → Justified plan w event
  | _ => True

theorem World.Move.justified {p p' : Point ω} (h : World.Move plan w p p' w') :
    JustifiedAt plan w' p' := by
  cases h with
  | @abort note event reason dated =>
      rintro ticket event' hphase _
      obtain ⟨_, rfl⟩ := Phase.sending.inj hphase
      exact (justified_of_abort? reason).congr rfl rfl rfl
  | @publish number result notes event outcome dated =>
      rintro ticket event' hphase hkind
      obtain ⟨_, rfl⟩ := Phase.sending.inj hphase
      have hobserved := kind_of_outcome (outcome_of_observation number outcome)
      exact absurd hkind (not_or.mpr hobserved)
  | start _ _ _ _ => trivial
  | ask _ => trivial
  | atOnce _ => trivial
  | inTime _ _ _ => trivial
  | answer => trivial
  | grace _ _ _ _ _ => trivial
  | progress _ _ _ _ => trivial
  | retry _ _ _ _ => trivial
  | hurry _ => trivial
  | rise _ _ _ => trivial
  -- and elsewhere the run is not about to send
  | _ => rintro ticket event' hphase; cases hphase

/-- The news with which a step of a run leaves it is justified. -/
theorem justified_stepRun (plan : Plan τ ω) (hgo : w.runCanGo = true) {ticket : Nat}
    (hphase : (w.stepRun plan).run.phase = .sending ticket event)
    (hkind : event.kind = .cancelled ∨ event.kind = .stopped) :
    Justified plan (w.stepRun plan) event := by
  have hstable : World.Stable plan fun point w => JustifiedAt plan w point :=
    fun _ _ _ _ hmove _ => hmove.justified
  have hlast := hstable.stepRun_of_first hgo fun _ _ hmove => hmove.justified
  exact hlast ticket event hphase hkind

end Reason

/-! ### What follows the decision -/

section Awake

variable [Clock τ] [Wait ω] [Spans ω τ] {plan : Plan τ ω} {w w' w₁ : World τ ω}
variable {event : Event τ} {words : List (Event τ)} {action : Action τ}
variable {actions later : List (Action τ)}

/-- What a run has said that has decided to end with an event. -/
inductive LastWord (plan : Plan τ ω) (ticket : Nat) (event : Event τ) (words : List (Event τ))
    (w : World τ ω) : Prop
  | waiting (phase : w.run.phase = .sending ticket event)
      (unanswered : w.traffic.replyTo? (.run ticket) = none) (silent : words = [])
  | taken (phase : w.run.phase = .sending ticket event)
      (answered : w.traffic.replyTo? (.run ticket) = some .sent) (said : words = [event])
  | turnedDown {d : Denial} (phase : w.run.phase = .sending ticket event)
      (answered : w.traffic.replyTo? (.run ticket) = some (.denied d)) (silent : words = [])
  | withdrawn (phase : w.run.phase = .sending ticket event)
      (answered : w.traffic.replyTo? (.run ticket) = some .withdrawn)
      (killed : w.run.killed = true) (silent : words = [])
  | finished (phase : w.run.phase = .ended .finished) (said : words = [event])
  | denied {d : Denial} (phase : w.run.phase = .ended (.denied d)) (silent : words = [])
  | cutOff (phase : w.run.phase = .ended .cancelled) (killed : w.run.killed = true)
      (rest : words = [] ∨ words = [World.killedEvent plan])
  /-- The task was cancelled where no record can be made of that. -/
  | cutShort {d : Defect} {instant : τ} (phase : w.run.phase = .ended (.broken d))
      (killed : w.run.killed = true) (ended : w.endedAt = some instant)
      (undated : Undated plan instant) (silent : words = [])

/-- A step of a run that has decided. -/
theorem LastWord.stepRun {ticket : Nat} (h : LastWord plan ticket event words w)
    (hterminal : event.isTerminal = true) (hgo : w.runCanGo = true) :
    LastWord plan ticket event (words ++ w.saidBy (w.stepRun plan) .run) (w.stepRun plan) := by
  have hover {how : Ending} (hphase : w.run.phase = .ended how) : False := by
    rw [World.runCanGo, hphase] at hgo
    cases hgo
  have hnothing (w₁ : World τ ω) (haccepted : w₁.traffic.accepted = w.traffic.accepted) :
      words ++ w.saidBy w₁ .run = words := by
    rw [World.saidBy, haccepted, List.drop_length, List.append_nil]
  cases h with
  | waiting phase unanswered silent =>
      simp only [World.runCanGo, phase, unanswered] at hgo
      cases hgo
  | taken phase answered said =>
      have hstep : w.stepRun plan = w.shut.finish .finished := by
        simp only [World.stepRun, phase, answered, World.afterSend, hterminal, if_true]
      rw [hstep, hnothing (w.shut.finish .finished) w.shut_accepted]
      exact .finished rfl said
  | @turnedDown d phase answered silent =>
      have hstep : w.stepRun plan = w.breakDown (.denied d) := by
        simp only [World.stepRun, phase, answered]
      rw [hstep, hnothing (w.breakDown (.denied d)) w.shut_accepted]
      exact .denied rfl silent
  | withdrawn phase answered killed silent =>
      have hstep : w.stepRun plan = w.unwind plan := by
        simp only [World.stepRun, phase, answered]
      have hact : w.act? plan .run = some (w.stepRun plan) := if_pos hgo
      have hkilled : (w.stepRun plan).run.killed = true :=
        World.killed_invariant.act trivial hact killed
      subst silent
      rw [List.nil_append]
      rw [hstep] at hkilled ⊢
      refine World.unwind_cases
        (motive := fun w₁ => w₁.run.killed = true →
          LastWord plan ticket event (w.saidBy w₁ .run) w₁)
        (fun _ hkilled => ?_) (fun hundated hkilled => ?_) hkilled
      · obtain ⟨new, hnew, haccepted⟩ :=
          (w.note (.warning "Poll task cancelled")).shutWith_accepted (World.killedEvent plan)
        have haccepted' : (w.withFarewell plan).traffic.accepted = w.traffic.accepted ++ new :=
          haccepted
        rw [World.saidBy, haccepted', List.drop_left]
        exact .cutOff rfl hkilled hnew
      · have hsilent := hnothing (w.breakDown (.broken .tooLarge)) w.shut_accepted
        rw [List.nil_append] at hsilent
        rw [hsilent]
        exact .cutShort rfl hkilled (w.endedAt_breakDown _) (undated_of_not_canRecord hundated) rfl
  | finished phase _ => exact (hover phase).elim
  | denied phase _ => exact (hover phase).elim
  | cutOff phase _ _ => exact (hover phase).elim
  | cutShort phase _ _ _ _ => exact (hover phase).elim

omit [Wait ω] [Spans ω τ] in
/-- Somebody looks at the stream while the event of the run waits there. -/
theorem LastWord.serve {ticket : Nat} (hposting : Posting plan (.held : Point ω) w.books)
    (hphase : w.run.phase = .sending ticket event)
    (hnone : w.traffic.replyTo? (.run ticket) = none) (position : Nat) :
    LastWord plan ticket event
      (w.saidBy { w with traffic := w.traffic.serveAt position } (.serve position))
      { w with traffic := w.traffic.serveAt position } := by
  have hsame {ticket' : Nat} {event' : Event τ} (hphase' : w.run.phase = .sending ticket' event') :
      ticket = ticket' ∧ event = event' := Phase.sending.inj (hphase.symm.trans hphase')
  cases hposting.glance position with
  | nothing replies silent =>
      rw [silent]
      exact .waiting hphase ((replies ticket).trans hnone) rfl
  | sent phase _ answered said =>
      obtain ⟨rfl, rfl⟩ := hsame phase
      exact .taken hphase answered said
  | denied phase _ answered silent =>
      obtain ⟨rfl, rfl⟩ := hsame phase
      exact .turnedDown hphase answered silent
  | withdrawn phase _ answered killed silent =>
      obtain ⟨rfl, rfl⟩ := hsame phase
      exact .withdrawn hphase answered killed silent

/-- Whatever happens, a run that has decided sticks to it. -/
theorem LastWord.act {ticket : Nat} (h : LastWord plan ticket event words w)
    (hterminal : event.isTerminal = true) (hposting : Posting plan (.held : Point ω) w.books)
    (hact : w.act? plan action = some w') :
    LastWord plan ticket event (words ++ w.saidBy w' action) w' := by
  have hacts := World.acts_of_act? hact
  by_cases hrun : action = .run
  · subst hrun
    cases hacts with
    | run hgo => exact h.stepRun hterminal hgo
  · have hphase := hacts.phase_eq hrun
    have hkept (hkilled : w.run.killed = true) : w'.run.killed = true :=
      World.killed_invariant.act trivial hact hkilled
    have hanswered {reply : Reply (Event τ)}
        (hreply : w.traffic.replyTo? (.run ticket) = some reply) :
        w'.traffic.replyTo? (.run ticket) = some reply :=
      (stream_invariant (fun t => t.replyTo? (.run ticket) = some reply) fun t s hbefore =>
        Stream.Traffic.replyTo?_of_prefix (Stream.Traffic.finished_prefix_step t s) hbefore).act
          trivial hact hreply
    have hsilent (hnone : w.traffic.offers = []) : words ++ w.saidBy w' action = words := by
      rw [World.saidBy_of_silent hact hnone hrun, List.append_nil]
    have hidle {reply : Reply (Event τ)} (hsending : w.run.phase = .sending ticket event)
        (hreply : w.traffic.replyTo? (.run ticket) = some reply) : w.traffic.offers = [] :=
      (postedIn_of_phase hsending hposting).1.of_reply hreply
    have hdone {how : Ending} (hended : w.run.phase = .ended how) : w.traffic.offers = [] :=
      postedIn_of_phase hended hposting
    cases h with
    | taken phase answered said =>
        rw [hsilent (hidle phase answered)]
        exact .taken (hphase.trans phase) (hanswered answered) said
    | turnedDown phase answered silent =>
        rw [hsilent (hidle phase answered)]
        exact .turnedDown (hphase.trans phase) (hanswered answered) silent
    | withdrawn phase answered killed silent =>
        rw [hsilent (hidle phase answered)]
        exact .withdrawn (hphase.trans phase) (hanswered answered) (hkept killed) silent
    | finished phase said =>
        rw [hsilent (hdone phase)]
        exact .finished (hphase.trans phase) said
    | denied phase silent =>
        rw [hsilent (hdone phase)]
        exact .denied (hphase.trans phase) silent
    | cutOff phase killed rest =>
        rw [hsilent (hdone phase)]
        exact .cutOff (hphase.trans phase) (hkept killed) rest
    | cutShort phase killed ended undated silent =>
        have hended : w'.endedAt = w.endedAt := by
          rw [World.endedAt, World.endedAt, hacts.journal_eq hrun]
        rw [hsilent (hdone phase)]
        exact .cutShort (hphase.trans phase) (hkept killed) (hended.trans ended) undated silent
    | waiting phase unanswered silent =>
        subst silent
        rw [List.nil_append]
        have hwaits (haside : action.isAside = true) :
            LastWord plan ticket event (w.saidBy w' action) w' := by
          have hreply : w'.traffic.replyTo? (.run ticket) = w.traffic.replyTo? (.run ticket) :=
            Stream.Traffic.replyTo?_of_finished_eq (hacts.finished_eq haside)
          rw [World.saidBy_of_isAside haside]
          exact .waiting (hphase.trans phase) (hreply.trans unanswered) rfl
        cases hacts with
        | run _ => exact absurd rfl hrun
        | serve _ => exact .serve hposting phase unanswered _
        | _ => exact hwaits rfl

theorem LastWord.actAll {ticket : Nat} (h : LastWord plan ticket event words w)
    (hterminal : event.isTerminal = true) (hposting : Posting plan (.held : Point ω) w.books)
    (hact : w.actAll? plan actions = some w') :
    LastWord plan ticket event (words ++ w.fromRun plan actions) w' := by
  induction actions generalizing w words with
  | nil =>
      cases hact
      rwa [World.fromRun, List.append_nil]
  | cons action actions ih =>
      obtain ⟨middle, hmiddle, hact⟩ := World.exists_of_actAll?_cons hact
      have hposting' := posting_invariant.act trivial hmiddle hposting
      have hrest := ih (h.act hterminal hposting hmiddle) hposting' hact
      rwa [World.fromRun, hmiddle, ← List.append_assoc]

/-! ### The run gets up -/

/-- How a run leaves its sleep by a step when the watch has to end, and what it says from then on up
to a later state. -/
inductive Leaves (plan : Plan τ ω) (words : List (Event τ)) (w₂ w₃ w : World τ ω) : Prop
  /-- Its task was cancelled, and it is over. -/
  | killed (killed : w₂.run.killed = true) (ended : w₃.run.phase = .ended .cancelled)
      (told : words = [] ∨ words = [World.killedEvent plan])
  /-- No record can be made of what it decides or of the cancellation of its task.  It breaks and
  says nothing. -/
  | undated (undated : Undated plan w₃.now) (ended : w₃.run.phase = .ended (.broken .tooLarge))
      (silent : words = [])
  /-- It says why the watch ends.  Only the stream or the cancellation of its task can keep it from
  that. -/
  | decided {ticket : Nat} {event : Event τ} (alive : w₂.run.killed = false)
      (sends : w₃.run.phase = .sending ticket event) (justified : Justified plan w₃ event)
      (told : words = [] ∨ words = [event] ∨
        w.run.killed = true ∧ words = [World.killedEvent plan])
      (ended : ∀ how, w.ending? = some how → how = .finished ∧ words = [event] ∨
        (∃ d, how = .denied d) ∨ how = .cancelled ∧ w.run.killed = true ∨
          (∃ d, how = .broken d) ∧ w.run.killed = true ∧
            ∃ instant, w.endedAt = some instant ∧ Undated plan instant)

omit [Wait ω] [Spans ω τ] in
theorem LastWord.isAsleep_eq {ticket : Nat} (h : LastWord plan ticket event words w) :
    w.run.phase.isAsleep = false := by
  cases h with
  | waiting phase _ _ => rw [phase]; rfl
  | taken phase _ _ => rw [phase]; rfl
  | turnedDown phase _ _ => rw [phase]; rfl
  | withdrawn phase _ _ _ => rw [phase]; rfl
  | finished phase _ => rw [phase]; rfl
  | denied phase _ => rw [phase]; rfl
  | cutOff phase _ _ => rw [phase]; rfl
  | cutShort phase _ _ _ _ => rw [phase]; rfl

omit [Wait ω] [Spans ω τ] in
theorem LastWord.leaves {ticket : Nat} {w₂ w₃ : World τ ω}
    (h : LastWord plan ticket event words w) (halive : w₂.run.killed = false)
    (hsends : w₃.run.phase = .sending ticket event) (hjustified : Justified plan w₃ event) :
    Leaves plan words w₂ w₃ w := by
  have hgoing {event' : Event τ} (hphase : w.run.phase = .sending ticket event') (how : Ending) :
      w.ending? = some how → how = .finished ∧ words = [event] ∨
        (∃ d, how = .denied d) ∨ how = .cancelled ∧ w.run.killed = true ∨
          (∃ d, how = .broken d) ∧ w.run.killed = true ∧
            ∃ instant, w.endedAt = some instant ∧ Undated plan instant := by
    intro hhow
    rw [World.ending?_eq_some, hphase] at hhow
    cases hhow
  have hended {how : Ending} (hphase : w.run.phase = .ended how) {how' : Ending}
      (hhow : w.ending? = some how') : how' = how := by
    rw [World.ending?_eq_some, hphase] at hhow
    exact (Phase.ended.inj hhow).symm
  cases h with
  | waiting phase _ silent => exact .decided halive hsends hjustified (.inl silent) (hgoing phase)
  | taken phase _ said =>
      exact .decided halive hsends hjustified (.inr (.inl said)) (hgoing phase)
  | turnedDown phase _ silent =>
      exact .decided halive hsends hjustified (.inl silent) (hgoing phase)
  | withdrawn phase _ _ silent =>
      exact .decided halive hsends hjustified (.inl silent) (hgoing phase)
  | finished phase said =>
      exact .decided halive hsends hjustified (.inr (.inl said)) fun how hhow =>
        .inl ⟨hended phase hhow, said⟩
  | @denied d phase silent =>
      exact .decided halive hsends hjustified (.inl silent) fun how hhow =>
        .inr (.inl ⟨d, hended phase hhow⟩)
  | cutOff phase killed rest =>
      exact .decided halive hsends hjustified (rest.imp id fun hkilled => .inr ⟨killed, hkilled⟩)
        fun how hhow => .inr (.inr (.inl ⟨hended phase hhow, killed⟩))
  | @cutShort d instant phase killed ended undated silent =>
      exact .decided halive hsends hjustified (.inl silent) fun how hhow =>
        .inr (.inr (.inr ⟨⟨d, hended phase hhow⟩, killed, instant, ended, undated⟩))

/-- A run says nothing in its sleep. -/
theorem saidBy_of_asleep (hposting : Posting plan (.held : Point ω) w.books)
    (hasleep : w.run.phase.isAsleep = true) (hact : w.act? plan action = some w')
    (hstill : w'.run.phase.isAsleep = true) : w.saidBy w' action = [] := by
  by_cases hrun : action = .run
  · subst hrun
    cases World.acts_of_act? hact with
    | run hgo =>
        rw [World.saidBy]
        rcases World.stepRun_accepted plan hgo with haccepted | ⟨_, hover⟩
        · rw [haccepted, List.drop_length]
        · rw [hover] at hstill
          cases hstill
  · have hnone : w.traffic.offers = [] := by
      have hposted : PostedIn plan w.books w.run.phase := hposting.stage
      cases hphase : w.run.phase with
      | sleeping pause due =>
          rw [hphase] at hposted
          exact hposted
      | tidying pause defect =>
          rw [hphase] at hposted
          exact hposted
      | created => rw [hphase] at hasleep; cases hasleep
      | querying number due => rw [hphase] at hasleep; cases hasleep
      | sending ticket event => rw [hphase] at hasleep; cases hasleep
      | ended how => rw [hphase] at hasleep; cases hasleep
    exact World.saidBy_of_silent hact hnone hrun

/-- Only a step of the run that was on its feet ends its sleep. -/
theorem World.tidying_of_left (hasleep : w.run.phase.isAsleep = true)
    (hact : w.act? plan action = some w') (hawake : w'.run.phase.isAsleep = false) :
    action = .run ∧ w' = w.stepRun plan ∧ ∃ pause, w.run.phase = .tidying pause none := by
  have hrun : action = .run := by
    by_contra hother
    rw [(World.acts_of_act? hact).phase_eq hother, hasleep] at hawake
    cases hawake
  subst hrun
  obtain ⟨⟩ := World.acts_of_act? hact
  refine ⟨rfl, rfl, ?_⟩
  cases hphase : w.run.phase with
  | sleeping pause due =>
      have hup : (w.stepRun plan).run.phase = .tidying pause none := by
        simp only [World.stepRun, hphase]
        rfl
      rw [hup] at hawake
      cases hawake
  | tidying pause defect =>
      cases defect with
      | none => exact ⟨pause, rfl⟩
      | some d => rw [hphase] at hasleep; cases hasleep
  | created => rw [hphase] at hasleep; cases hasleep
  | querying number due => rw [hphase] at hasleep; cases hasleep
  | sending ticket event => rw [hphase] at hasleep; cases hasleep
  | ended how => rw [hphase] at hasleep; cases hasleep

/-- The step with which a run leaves its sleep, and all that follows it. -/
theorem leaves_of_stepRun {pause : Nat} (hposting : Posting plan (.held : Point ω) w.books)
    (hmust : w.MustEnd) (hphase : w.run.phase = .tidying pause none)
    (hact : w.act? plan .run = some w₁) (hlater : w₁.actAll? plan later = some w') :
    w₁.now = w.now ∧ w'.run.phase.isAsleep = false ∧
      Leaves plan (w.fromRun plan (.run :: later)) w w₁ w' := by
  have hposting₁ := posting_invariant.act trivial hact hposting
  have hwords : w.fromRun plan (.run :: later) =
      w.saidBy w₁ .run ++ w₁.fromRun plan later := by
    rw [World.fromRun, hact]
  have hrises : World.Rises plan w w₁ := by
    obtain ⟨_⟩ := World.acts_of_act? hact
    exact World.rises_stepRun hphase hmust
  -- a run that is over stays over and says nothing more
  have hover {how : Ending} (hended : w₁.run.phase = .ended how) :
      w'.run.phase = .ended how ∧ w.fromRun plan (.run :: later) = w.saidBy w₁ .run := by
    have hstays := (World.ended_invariant how).actAll (fun _ _ => trivial) hlater ⟨rfl, hended⟩
    rw [hwords, fromRun_of_ended hposting₁ hended, List.append_nil]
    exact ⟨hstays.2, rfl⟩
  cases hrises with
  | farewell killed =>
      have htold : w.saidBy (w.withFarewell plan) .run = [] ∨
          w.saidBy (w.withFarewell plan) .run = [World.killedEvent plan] := by
        obtain ⟨new, hnew, haccepted⟩ :=
          (w.note (.warning "Poll task cancelled")).shutWith_accepted (World.killedEvent plan)
        have haccepted' : (w.withFarewell plan).traffic.accepted = w.traffic.accepted ++ new :=
          haccepted
        rwa [World.saidBy, haccepted', List.drop_left]
      obtain ⟨hstays, hsaid⟩ := hover rfl
      rw [hsaid, hstays]
      exact ⟨(World.Advance.withFarewell w).now, rfl, .killed killed rfl htold⟩
  | undated undated =>
      have hnow : (w.breakDown (.broken .tooLarge)).now = w.now :=
        (World.Advance.breakDown w _ : World.Advance plan w _).now
      have hsilent : w.saidBy (w.breakDown (.broken .tooLarge)) .run = [] := by
        have haccepted : (w.breakDown (.broken .tooLarge)).traffic.accepted =
            w.traffic.accepted := w.shut_accepted
        rw [World.saidBy, haccepted, List.drop_length]
      obtain ⟨hstays, hsaid⟩ := hover rfl
      rw [hsaid, hsilent, hstays]
      refine ⟨hnow, rfl, .undated ?_ rfl rfl⟩
      rw [hnow]
      exact undated_of_not_canRecord undated
  | @decision note event alive reason =>
      have hjustified : Justified plan ((w.note note).send event) event :=
        (justified_of_abort? reason).congr rfl rfl rfl
      have haccepted : ((w.note note).send event).traffic.accepted = w.traffic.accepted :=
        World.send_accepted _ event
      have hunanswered :
          ((w.note note).send event).traffic.replyTo? (.run w.run.sends) = none := by
        have hfresh : w.traffic.replyTo? (.run w.run.sends) = none :=
          hposting.fresh _ (Nat.le_refl _)
        rw [Stream.Traffic.replyTo?_of_finished_eq (World.send_finished _ _)]
        exact hfresh
      have hword : LastWord plan w.run.sends event [] ((w.note note).send event) :=
        .waiting rfl hunanswered rfl
      have hlast := hword.actAll (isAbort_of_abort? reason).isTerminal hposting₁ hlater
      rw [hwords, World.saidBy, haccepted, List.drop_length]
      exact ⟨rfl, hlast.isAsleep_eq, hlast.leaves alive rfl hjustified⟩

/-- What becomes of a run that sleeps when the watch has to end. -/
structure Roused (plan : Plan τ ω) (w₁ : World τ ω) (later : List (Action τ)) (w : World τ ω) :
    Prop where
  /-- It queries no more. -/
  still : w.queryTimes = w₁.queryTimes
  /-- As long as it has not left its sleep, no time passes, for it can take a step or one of its
  helpers can; and that is over after a few of them. -/
  prompt : w.run.phase.isAsleep = true →
    w.now = w₁.now ∧ w₁.fromRun plan later = [] ∧ later.countP Action.isOwn ≤ 5 ∧
      ∃ action : Action τ, action.isOwn = true ∧ (w.act? plan action).isSome = true
  /-- It leaves its sleep at the instant at which the watch had to end. -/
  left : w.run.phase.isAsleep = false → ∃ before after w₂ w₃, later = before ++ .run :: after ∧
    w₁.actAll? plan before = some w₂ ∧ w₂.run.phase.isAsleep = true ∧
      w₂.act? plan .run = some w₃ ∧ w₃.now = w₁.now ∧
        Leaves plan (w₁.fromRun plan later) w₂ w₃ w

section Exact

variable [ExactClock τ]

/-- A run that sleeps and has to end sleeps on for some steps at the same instant, and leaves. -/
theorem sleeps_or_leaves (hact : w₁.actAll? plan later = some w)
    (hguarded : World.Guarded (.held : Point ω) w₁)
    (hposting : Posting plan (.held : Point ω) w₁.books)
    (hasleep : w₁.run.phase.isAsleep = true) (hmust : w₁.MustEnd) :
    (w.run.phase.isAsleep = true ∧ w.now = w₁.now ∧ w₁.fromRun plan later = [] ∧
        w.toRise + later.countP Action.isOwn ≤ w₁.toRise) ∨
      w.run.phase.isAsleep = false ∧ ∃ before after w₂ w₃, later = before ++ .run :: after ∧
        w₁.actAll? plan before = some w₂ ∧ w₂.run.phase.isAsleep = true ∧
          w₂.act? plan .run = some w₃ ∧ w₃.now = w₁.now ∧
            Leaves plan (w₁.fromRun plan later) w₂ w₃ w := by
  induction later generalizing w₁ with
  | nil =>
      cases hact
      exact .inl ⟨hasleep, rfl, rfl, Nat.le_refl _⟩
  | cons action rest ih =>
      obtain ⟨middle, hmiddle, hlater⟩ := World.exists_of_actAll?_cons hact
      cases hstill : middle.run.phase.isAsleep with
      | true =>
          have hmust' := ((World.stilled_invariant w₁.queryTimes).act trivial hmiddle
            ⟨hmust, rfl⟩).1
          obtain ⟨hnow, htoRise⟩ := hguarded.toRise_act hasleep hmust hmiddle hstill
          have hsilent := saidBy_of_asleep hposting hasleep hmiddle hstill
          have hwords : w₁.fromRun plan (action :: rest) = middle.fromRun plan rest := by
            rw [World.fromRun, hmiddle]
            simp only [hsilent, List.nil_append]
          rw [hwords, ← hnow]
          rcases ih hlater (World.guarded_invariant.act trivial hmiddle hguarded)
              (posting_invariant.act trivial hmiddle hposting) hstill hmust' with
            ⟨hend, hinstant, hquiet, hrest⟩ |
              ⟨hend, before, after, w₂, w₃, rfl, hbefore, hasleep₂, hstep, hinstant, hleaves⟩
          · refine .inl ⟨hend, hinstant, hquiet, ?_⟩
            rw [List.countP_cons]
            cases hown : action.isOwn <;>
              simp only [hown, Bool.toNat_true, Bool.toNat_false] at htoRise
            · simp only [Bool.false_eq_true, if_false]
              omega
            · simp only [if_true]
              omega
          · refine .inr ⟨hend, action :: before, after, w₂, w₃, rfl, ?_, hasleep₂, hstep, hinstant,
              hleaves⟩
            simp only [World.actAll?, hmiddle]
            exact hbefore
      | false =>
          obtain ⟨rfl, _, pause, hphase⟩ := World.tidying_of_left hasleep hmiddle hstill
          obtain ⟨hnow, hend, hleaves⟩ := leaves_of_stepRun hposting hmust hphase hmiddle hlater
          exact .inr ⟨hend, [], rest, w₁, middle, rfl, rfl, hasleep, hmiddle, hnow, hleaves⟩

/-- The clock does not pass the deadline while the run sleeps: it stops there. -/
theorem deadline_of_passTime {goal : τ} (hguarded : World.Guarded (.held : Point ω) w)
    (hasleep : w.run.phase.isAsleep = true) (hgoing : ¬w.MustEnd)
    (hact : w.act? plan (.passTime goal) = some w') (hmust : w'.MustEnd) :
    w'.cancellation.deadline = some w'.now := by
  obtain ⟨⟩ | ⟨⟩ | ⟨⟩ | ⟨hsettled, _, htimers⟩ := World.acts_of_act? hact
  obtain ⟨hrun, hhelpers⟩ := World.resting_of_settled hsettled
  obtain ⟨due, hdue, hreached⟩ := hmust.resolve_left fun hsignalled => hgoing (.inl hsignalled)
  have hdeadline : w.cancellation.deadline = some due := hdue
  cases hphase : w.run.phase with
  | sleeping pause until' =>
      -- the helper that guards against the deadline is there, and its timer is for the deadline
      have hfull : w.fullyGuarded pause = true := by
        simp only [World.runCanGo, hphase, Bool.or_eq_false_iff, Bool.not_eq_false'] at hrun
        exact hrun.2
      simp only [World.fullyGuarded, List.all_cons, List.all_nil, Bool.and_true, Bool.and_eq_true,
        List.any_eq_true, beq_iff_eq] at hfull
      obtain ⟨⟨helper, hmember, _, hguards⟩, _⟩ := hfull
      have hstays := hhelpers helper hmember
      cases harmed : helper.armed with
      | none => simp [World.helperCanGo, harmed] at hstays
      | some timer =>
          have htimer := hguarded.alarms helper hmember timer harmed
          rw [hguards, World.alarm, hdeadline] at htimer
          have hset : due ∈ w.timers := by
            rw [World.timers, List.mem_append, List.mem_filterMap]
            exact .inr ⟨helper, hmember, by rw [harmed, htimer]; rfl⟩
          rw [hdeadline, ExactClock.antisymm hreached (htimers due hset)]
  | tidying pause defect =>
      exact absurd hphase (World.not_tidying_of_settled hguarded.guards hsettled pause defect)
  | created => rw [hphase] at hasleep; cases hasleep
  | querying number until' => rw [hphase] at hasleep; cases hasleep
  | sending ticket event => rw [hphase] at hasleep; cases hasleep
  | ended how => rw [hphase] at hasleep; cases hasleep

/-- How a watch is woken that has to end, in the course of some actions. -/
structure Alert (plan : Plan τ ω) (before : World τ ω) (actions : List (Action τ))
    (w : World τ ω) : Prop where
  /-- Whenever the watch has to end while the run sleeps, the run is roused. -/
  roused : ∀ earlier later w₁, actions = earlier ++ later →
    before.actAll? plan earlier = some w₁ → w₁.run.phase.isAsleep = true → w₁.MustEnd →
      Roused plan w₁ later w
  /-- If the clock brings that about, it shows the deadline. -/
  punctual : ∀ earlier goal later w₁ w₂, actions = earlier ++ .passTime goal :: later →
    before.actAll? plan earlier = some w₁ → w₁.run.phase.isAsleep = true → ¬w₁.MustEnd →
      w₁.act? plan (.passTime goal) = some w₂ → w₂.MustEnd →
        w₂.cancellation.deadline = some w₂.now
  /-- Whenever the run decides to end with the news that the watch was aborted, asleep before or
  not, the news is justified by what it finds at that moment. -/
  justified : ∀ earlier later w₁ w₂ ticket event, actions = earlier ++ .run :: later →
    before.actAll? plan earlier = some w₁ → w₁.act? plan .run = some w₂ →
      w₂.run.phase = .sending ticket event → event.kind = .cancelled ∨ event.kind = .stopped →
        Justified plan w₂ event

/-- However long a pause is to be, a watch that has to end is woken at once and says why it ends. -/
theorem wakes_at_once_and_tells_why {stream : Stream (Event τ)} {now : τ}
    {cancellation : Cancellation τ} {stopped : Bool}
    (hact : (World.start now cancellation stopped stream).actAll? plan actions = some w) :
    Alert plan (World.start now cancellation stopped stream) actions w := by
  have hguarded {earlier : List (Action τ)} {w₁ : World τ ω}
      (hearlier : (World.start now cancellation stopped stream).actAll? plan earlier = some w₁) :
      World.Guarded (.held : Point ω) w₁ :=
    World.guarded_invariant.actAll (fun _ _ => trivial) hearlier (World.guarded_of_nil rfl rfl)
  have hposting {earlier : List (Action τ)} {w₁ : World τ ω}
      (hearlier : (World.start now cancellation stopped stream).actAll? plan earlier = some w₁) :
      Posting plan (.held : Point ω) w₁.books :=
    posting_invariant.actAll (fun _ _ => trivial) hearlier ⟨fun _ _ => rfl, rfl, rfl⟩
  constructor
  · intro earlier later w₁ hactions hearlier hasleep hmust
    have hlater : w₁.actAll? plan later = some w := by
      rwa [hactions, World.actAll?_append, hearlier, Option.bind_some] at hact
    have hstilled := (World.stilled_invariant w₁.queryTimes).actAll (fun _ _ => trivial) hlater
      ⟨hmust, rfl⟩
    have hguarded' : World.Guarded (.held : Point ω) w := hguarded hact
    have hafter := sleeps_or_leaves hlater (hguarded hearlier) (hposting hearlier) hasleep hmust
    refine ⟨hstilled.2, fun hstill => ?_, fun hawake => ?_⟩
    · obtain ⟨_, hnow, hsilent, hfew⟩ | ⟨hawake, _⟩ := hafter
      · have hbefore := (hguarded hearlier).toRise_le hasleep
        have hrest := hguarded'.toRise_le hstill
        exact ⟨hnow, hsilent, by omega, hguarded'.exists_own plan hstill hstilled.1⟩
      · exact absurd (hstill.symm.trans hawake) (by simp)
    · obtain ⟨hstill, _⟩ | ⟨_, hleft⟩ := hafter
      · exact absurd (hstill.symm.trans hawake) (by simp)
      · exact hleft
  · intro earlier goal later w₁ w₂ _ hearlier hasleep hgoing hpass hmust
    exact deadline_of_passTime (hguarded hearlier) hasleep hgoing hpass hmust
  · intro earlier later w₁ w₂ ticket event _ _ hstep hphase hkind
    simp only [World.act?, Option.ite_none_right_eq_some, Option.some.injEq] at hstep
    obtain ⟨hgo, rfl⟩ := hstep
    exact justified_stepRun plan hgo hphase hkind

end Exact

/-- After a failure the run sleeps until the eighth second, and the deadline comes in the fifth. -/
def dozing : List (Action Int) :=
  [.run, .passTime 3, .run, .serve 0, .run, .helper 0, .helper 1, .passTime 5]

/-- A helper notices, the run gets up, sends the other helper away, and says why it ends. -/
def rising : List (Action Int) := [.helper 0, .run, .helper 0, .run, .serve 0, .run]

/-- The watch ends in the fifth second, with one query, and tells of its deadline. -/
theorem wakes_at_once_and_tells_why_of_dozing :
    ∃ w₁ w : World Int Int,
      (World.start 0 ⟨false, some 5⟩ false ⟨2, [], false⟩).actAll? faltering dozing = some w₁ ∧
      (World.start 0 ⟨false, some 5⟩ false ⟨2, [], false⟩).actAll? faltering (dozing ++ rising) =
        some w ∧
      w₁.run.phase.isAsleep = true ∧ w₁.MustEnd ∧ w.queryTimes = [0] ∧ w.now = 5 ∧
      w.ending? = some .finished ∧
      w₁.fromRun faltering rising = [.cancelled (.cancelled "demo" true)] ∧
      Alert faltering (World.start 0 ⟨false, some 5⟩ false ⟨2, [], false⟩) (dozing ++ rising) w := by
  obtain ⟨w₁, hact₁, hasleep, hdeadline, hnow₁, hwords⟩ : ∃ w₁ : World Int Int,
      (World.start 0 ⟨false, some 5⟩ false ⟨2, [], false⟩).actAll? faltering dozing = some w₁ ∧
        w₁.run.phase.isAsleep = true ∧ w₁.cancellation.deadline = some 5 ∧ w₁.now = 5 ∧
        w₁.fromRun faltering rising = [.cancelled (.cancelled "demo" true)] :=
    ⟨_, rfl, rfl, rfl, rfl, rfl⟩
  obtain ⟨w, hact, hqueries, hnow, hover⟩ : ∃ w : World Int Int,
      (World.start 0 ⟨false, some 5⟩ false ⟨2, [], false⟩).actAll? faltering (dozing ++ rising) =
        some w ∧ w.queryTimes = [0] ∧ w.now = 5 ∧ w.ending? = some .finished :=
    ⟨_, rfl, rfl, rfl, rfl⟩
  have hmust : w₁.MustEnd := by
    refine .inr ⟨5, hdeadline, ?_⟩
    rw [hnow₁]
    rfl
  exact ⟨w₁, w, hact₁, hact, hasleep, hmust, hqueries, hnow, hover, hwords,
    wakes_at_once_and_tells_why hact⟩

end Awake

/-! ### Woken too late for the log -/

/-- A watch is called off while its run sleeps beyond the calendar.  The run is up at once, asks no
more, and breaks: nobody can log that it was called off, and so the stream is not told. -/
theorem timeless_ends_untold :
    WaitConfig.make (some (.plain "demo")) (some (.plain "up")) [] (some (.whole 0))
      (some (.whole (2 * pow10 12))) = .ok timeless.config ∧
    ∃ w₁ w : World Float Amount,
      (World.start Clock.zero ⟨false, none⟩ false ⟨1, [], false⟩).actAll? timeless
        (asleepForAges ++ [.trigger .cancel]) = some w₁ ∧
      w₁.actAll? timeless [.helper 0, .run, .helper 0, .run] = some w ∧
      w₁.run.phase.isAsleep = true ∧ w₁.MustEnd ∧
      w.run.killed = false ∧ w.ending? = some (.broken .tooLarge) ∧
      w₁.fromRun timeless [.helper 0, .run, .helper 0, .run] = [] := by
  have hinterval : Wait.isNegative (Amount.whole (2 * pow10 12)) = false := by decide +kernel
  obtain ⟨w₁, hact₁, hasleep, hmust, hsilent, w, hact, halive, hended⟩ :
      ∃ w₁ : World Float Amount,
        (World.start Clock.zero ⟨false, none⟩ false ⟨1, [], false⟩).actAll? timeless
          (asleepForAges ++ [.trigger .cancel]) = some w₁ ∧
        w₁.run.phase.isAsleep = true ∧ w₁.MustEnd ∧
        w₁.fromRun timeless [.helper 0, .run, .helper 0, .run] = [] ∧
        ∃ w, w₁.actAll? timeless [.helper 0, .run, .helper 0, .run] = some w ∧
          w.run.killed = false ∧ w.ending? = some (.broken .tooLarge) := by
    decide +kernel
  exact ⟨make_of_not_negative hinterval, w₁, w, hact₁, hact, hasleep, hmust, halive, hended,
    hsilent⟩

end Vigil.Watch
