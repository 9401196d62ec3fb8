import Vigil.Proofs.Watch.Upkeep

/-!
# What a run has on its way

A run has at most one event on its way to the stream: the outcome of its newest query, or that it
was aborted.  Nothing is assumed of the consumers here, which may send and close as they like; so it
is told of each look at the stream whether the run took it.
-/

namespace Vigil.Stream.Traffic

open Vigil.Watch (PartyId)

variable {ε : Type} {t t' : Traffic PartyId ε}

/-- The party at a position of those who are to look is the run. -/
def servesRun (t : Traffic PartyId ε) (position : Nat) : Bool :=
  t.ready[position]?.any fun party => party.id.isRun

/-- Serving a consumer is nothing to the run, whatever the consumer asks for, but the stream may
accept something from it. -/
theorem bystanding_of_served_consumer {party : Party PartyId ε} {others : List (Party PartyId ε)}
    (hconsumer : party.id.isRun = false)
    (hbefore : t.offers.Perm (others.filter fun party => party.id.isRun))
    (hserved : Served t party others t') : Bystanding t { t' with accepted := t.accepted } := by
  have hanswer (reply : Reply ε) :
      ∀ answer ∈ [(party.id, reply)], answer.1.isRun = false := by simpa using hconsumer
  cases hserved with
  | withdrawn _ parties finished _ _ _ =>
      exact ⟨(offers_of_perm parties).trans hbefore.symm, ⟨_, hanswer _, finished⟩, rfl⟩
  | turnedDown _ _ parties finished _ _ _ =>
      exact ⟨(offers_of_perm parties).trans hbefore.symm, ⟨_, hanswer _, finished⟩, rfl⟩
  | met _ _ parties finished _ _ _ =>
      exact ⟨(offers_of_perm parties).trans hbefore.symm, ⟨_, hanswer _, finished⟩, rfl⟩
  | blocked _ _ parties finished _ _ _ =>
      have hoffers := offers_of_perm parties
      simp only [List.filter_cons, hconsumer, Bool.false_eq_true, if_false] at hoffers
      exact ⟨hoffers.trans hbefore.symm, ⟨[], by simp, by simpa using finished⟩, rfl⟩

/-- Serving somebody is nothing to the run or answers it, and it can be told which. -/
theorem serveAt_turn (hoffers : ∀ party ∈ t.offers, party.ask.sends = true) (position : Nat) :
    (t.servesRun position = false ∧
        Bystanding t { t.serveAt position with accepted := t.accepted }) ∨
      (t.servesRun position = true ∧ Concern t (t.serveAt position)) := by
  rw [servesRun]
  cases hparty : t.ready[position]? with
  | none =>
      rw [serveAt_of_none hparty]
      exact .inl ⟨rfl, .refl _, ⟨[], by simp, by simp⟩, rfl⟩
  | some party =>
      obtain ⟨others, hparties, hserved⟩ := serveAt_served hparty
      have hbefore := offers_of_perm hparties
      rw [Option.any_some]
      cases hrun : party.id.isRun with
      | false =>
          simp only [List.filter_cons, hrun, Bool.false_eq_true, if_false] at hbefore
          exact .inl ⟨rfl, bystanding_of_served_consumer hrun hbefore hserved⟩
      | true =>
          simp only [List.filter_cons, hrun, if_true] at hbefore
          have hsends := hoffers party (hbefore.mem_iff.mpr List.mem_cons_self)
          obtain ⟨id, ask, gone⟩ := party
          cases id with
          | consumer number => cases hrun
          | run ticket =>
              cases ask with
              | send entry => exact .inr ⟨rfl, concern_of_served hbefore hserved⟩
              | receive => cases hsends
              | collect got => cases hsends
              | last newest => cases hsends
              | close => cases hsends

end Vigil.Stream.Traffic

namespace Vigil.Watch

open Log (Note)
open Vigil.Stream (Denial Reply Traffic)
open Vigil.Stream.Traffic (Bystanding Closing)

variable {τ ω : Type}

/-! ### What reaches the stream at once -/

namespace World

theorem shut_accepted (w : World τ ω) : w.shut.traffic.accepted = w.traffic.accepted := by
  rcases w.shut_closing.accepted with h | ⟨_, h⟩
  · rwa [List.append_nil] at h
  · exact h

theorem send_accepted (w : World τ ω) (event : Event τ) :
    (w.send event).traffic.accepted = w.traffic.accepted := by
  simp only [send]
  cases w.run.killed <;> rfl

theorem send_finished (w : World τ ω) (event : Event τ) :
    (w.send event).traffic.finished = w.traffic.finished := by
  simp only [send]
  cases w.run.killed <;> rfl

/-- A cancelled task leaves its last event behind, or finds the stream closed. -/
theorem shutWith_accepted (w : World τ ω) (event : Event τ) :
    ∃ new, (new = [] ∨ new = [event]) ∧
      (w.shutWith event).traffic.accepted = w.traffic.accepted ++ new := by
  rcases (w.shutWith_closing event).accepted with h | ⟨_, h⟩
  · exact ⟨[event], .inr rfl, h⟩
  · exact ⟨[], .inl rfl, by rw [h, List.append_nil]⟩

end World

/-! ### What the run has on its way -/

/-- The event is the outcome of the newest query. -/
def IsNewest [Clock τ] (plan : Plan τ ω) (readings : List (Reading τ)) (asked : Nat)
    (event : Event τ) : Prop :=
  ∃ r, readings.getLast? = some r ∧ r.number + 1 = asked ∧ r.outcome plan = some event

/-- The run offers an event to the stream, or knows what became of it. -/
inductive Offered (killed : Bool) (traffic : Traffic PartyId (Event τ)) (ticket : Nat)
    (event : Event τ) : Prop
  | pending (offers : traffic.offers = [⟨.run ticket, .send event, killed⟩])
      (reply : traffic.replyTo? (.run ticket) = none)
  | answered {reply : Reply (Event τ)} (offers : traffic.offers = [])
      (reply : traffic.replyTo? (.run ticket) = some reply)

theorem Offered.of_reply {killed : Bool} {traffic : Traffic PartyId (Event τ)} {ticket : Nat}
    {event : Event τ} {reply : Reply (Event τ)} (h : Offered killed traffic ticket event)
    (hreply : traffic.replyTo? (.run ticket) = some reply) : traffic.offers = [] := by
  cases h with
  | pending _ none => rw [none] at hreply; cases hreply
  | answered offers _ => exact offers

section Posting

variable [Clock τ] {plan : Plan τ ω} {b : Books τ}

/-- What is on its way while the run is held up in a phase. -/
def PostedIn (plan : Plan τ ω) (b : Books τ) : Phase τ → Prop
  | .querying number _ => b.traffic.offers = [] ∧ number + 1 = b.asked
  | .sending ticket event =>
      Offered b.run.killed b.traffic ticket event ∧ ticket < b.run.sends ∧
        (IsNewest plan b.readings b.asked event ∨ IsAbort plan event)
  | _ => b.traffic.offers = []

/-- What is on its way at a point of the control flow. -/
def PostedAt (plan : Plan τ ω) (b : Books τ) : Point ω → Prop
  | .held => PostedIn plan b b.run.phase
  | .asked number => b.traffic.offers = [] ∧ number + 1 = b.asked
  | .due number => b.traffic.offers = [] ∧ number + 1 = b.asked
  | .answered number result =>
      b.traffic.offers = [] ∧ number + 1 = b.asked ∧
        b.readings.getLast? = some ⟨b.now, number, result⟩
  | _ => b.traffic.offers = []

/-- What the run has on its way, whatever its consumers do. -/
structure Posting (plan : Plan τ ω) (point : Point ω) (b : Books τ) : Prop where
  fresh : ∀ ticket, b.run.sends ≤ ticket → b.traffic.replyTo? (.run ticket) = none
  counted : b.run.queries = b.asked
  stage : PostedAt plan b point

theorem postedIn_of_phase {w : World τ ω} {phase : Phase τ} (hphase : w.run.phase = phase)
    (h : Posting plan (.held : Point ω) w.books) : PostedIn plan w.books phase := by
  rw [← hphase]
  exact h.stage

/-- All that a run has on its stream are its sends. -/
theorem PostedIn.sends {phase : Phase τ} (h : PostedIn plan b phase) :
    ∀ party ∈ b.traffic.offers, party.ask.sends = true := by
  have hnone (hoffers : b.traffic.offers = []) :
      ∀ party ∈ b.traffic.offers, party.ask.sends = true := by simp [hoffers]
  cases phase with
  | created => exact hnone h
  | querying number due => exact hnone h.1
  | sleeping pause due => exact hnone h
  | tidying pause defect => exact hnone h
  | ended how => exact hnone h
  | sending ticket event =>
      cases h.1 with
      | answered offers _ => exact hnone offers
      | pending offers _ =>
          rw [offers]
          simp [Stream.Ask.sends]

/-- What does not concern the run leaves what it has on its way. -/
theorem PostedIn.bystanding {phase : Phase τ} {t' : Traffic PartyId (Event τ)}
    (h : PostedIn plan b phase)
    (hothers : Bystanding b.traffic { t' with accepted := b.traffic.accepted }) :
    PostedIn plan { b with traffic := t' } phase := by
  have hoffers : t'.offers.Perm b.traffic.offers := hothers.offers
  have hnone (hbefore : b.traffic.offers = []) : t'.offers = [] := by
    rwa [hbefore, List.perm_nil] at hoffers
  cases phase with
  | created => exact hnone h
  | querying number due => exact ⟨hnone h.1, h.2⟩
  | sleeping pause due => exact hnone h
  | tidying pause defect => exact hnone h
  | ended how => exact hnone h
  | sending ticket event =>
      obtain ⟨hoffered, hrest⟩ := h
      have hreply : t'.replyTo? (.run ticket) = b.traffic.replyTo? (.run ticket) :=
        hothers.replyTo? ticket
      refine ⟨?_, hrest⟩
      cases hoffered with
      | pending offers none =>
          rw [offers, List.perm_singleton] at hoffers
          exact .pending hoffers (hreply.trans none)
      | answered offers some => exact .answered (hnone offers) (hreply.trans some)

namespace Posting

theorem bystanding {t' : Traffic PartyId (Event τ)}
    (h : Posting plan (.held : Point ω) b)
    (hothers : Bystanding b.traffic { t' with accepted := b.traffic.accepted }) :
    Posting plan (.held : Point ω) { b with traffic := t' } where
  fresh ticket hticket := by
    have hreply : t'.replyTo? (.run ticket) = b.traffic.replyTo? (.run ticket) :=
      hothers.replyTo? ticket
    exact hreply.trans (h.fresh ticket hticket)
  counted := h.counted
  stage := PostedIn.bystanding h.stage hothers

/-- The offer of the run was answered. -/
theorem answered {t' : Traffic PartyId (Event τ)} {ticket : Nat} {event : Event τ}
    {reply : Reply (Event τ)} (h : Posting plan (.held : Point ω) b)
    (hphase : b.run.phase = .sending ticket event)
    (hnone : b.traffic.replyTo? (.run ticket) = none) (hoffers : t'.offers = [])
    (hfinished : t'.finished = b.traffic.finished ++ [(.run ticket, reply)]) :
    Posting plan (.held : Point ω) { b with traffic := t' } := by
  have hstage : PostedIn plan b b.run.phase := h.stage
  rw [hphase] at hstage
  obtain ⟨_, hticket, hevent⟩ := hstage
  refine ⟨fun other hother => ?_, h.counted, ?_⟩
  · have hne : PartyId.run ticket ≠ .run other := by
      intro heq
      have hother' : b.run.sends ≤ other := hother
      rw [PartyId.run.injEq] at heq
      omega
    exact (Stream.Traffic.replyTo?_append_of_ne hne hfinished).trans (h.fresh other hother)
  · simp only [PostedAt, hphase]
    exact ⟨.answered hoffers (Stream.Traffic.replyTo?_append_self hnone hfinished), hticket, hevent⟩

theorem finish {w' : World τ ω} {last : List (Event τ)} {how : Ending} {point : Point ω}
    (h : Posting plan point b) (hbooks : w'.books = { b with traffic := w'.traffic })
    (hclosing : Closing last b.traffic w'.traffic) (hoffers : b.traffic.offers = []) :
    Posting plan (.held : Point ω) (w'.finish how).books := by
  rw [World.books_finish, hbooks]
  refine ⟨fun ticket hticket => ?_, h.counted, hclosing.offers_eq_nil hoffers⟩
  exact (Stream.Traffic.replyTo?_of_finished_eq hclosing.finished).trans (h.fresh ticket hticket)

theorem breakDown {w : World τ ω} {how : Ending} {point : Point ω} (h : Posting plan point b)
    (hbooks : w.books = b) (hoffers : b.traffic.offers = []) :
    Posting plan (.held : Point ω) (w.breakDown how).books := by
  subst hbooks
  exact h.finish w.books_shut w.shut_closing hoffers

theorem shutWith {w : World τ ω} {event : Event τ} {how : Ending} {point : Point ω}
    (h : Posting plan point b) (hbooks : w.books = b) (hoffers : b.traffic.offers = []) :
    Posting plan (.held : Point ω) ((w.shutWith event).finish how).books := by
  subst hbooks
  exact h.finish (w.books_shutWith event) (w.shutWith_closing event) hoffers

theorem withFarewell {w : World τ ω} {point : Point ω} (h : Posting plan point b)
    (hbooks : w.books = b) (hoffers : b.traffic.offers = []) :
    Posting plan (.held : Point ω) (w.withFarewell plan).books :=
  h.shutWith ((w.books_note _).trans hbooks) hoffers

theorem send {w : World τ ω} {event : Event τ} {point : Point ω} (h : Posting plan point b)
    (hbooks : w.books = b) (hoffers : b.traffic.offers = [])
    (hevent : IsNewest plan b.readings b.asked event ∨ IsAbort plan event) :
    Posting plan (.held : Point ω) (w.send event).books := by
  subst hbooks
  have hnone : w.traffic.offers = [] := hoffers
  have hstarted : (w.traffic.start (.run w.run.sends) (.send event)).offers =
      [⟨.run w.run.sends, .send event, false⟩] := by
    rw [Stream.Traffic.offers_start_run, hnone, List.nil_append]
  have hoffered : (w.send event).traffic.offers =
      [⟨.run w.run.sends, .send event, w.run.killed⟩] := by
    simp only [World.send]
    cases w.run.killed with
    | false => exact hstarted
    | true => exact Stream.Traffic.offers_withdraw_run hstarted
  have hreply (ticket : Nat) : (w.send event).traffic.replyTo? (.run ticket) =
      w.traffic.replyTo? (.run ticket) :=
    Stream.Traffic.replyTo?_of_finished_eq (w.send_finished event)
  refine ⟨fun ticket hticket => ?_, h.counted, ?_, Nat.lt_succ_self _, hevent⟩
  · exact (hreply ticket).trans (h.fresh ticket (Nat.le_of_succ_le hticket))
  · exact .pending hoffered ((hreply _).trans (h.fresh _ (Nat.le_refl _)))

end Posting

/-- Only a run that is about to send has an offer on its stream. -/
theorem PostedIn.of_offer {phase : Phase τ} {ticket : Nat} {entry : Event τ} {gone : Bool}
    {rest : List (Stream.Party PartyId (Event τ))} (h : PostedIn plan b phase)
    (hoffers : b.traffic.offers.Perm (⟨.run ticket, .send entry, gone⟩ :: rest)) :
    phase = .sending ticket entry ∧ rest = [] ∧ b.traffic.replyTo? (.run ticket) = none := by
  have hsome : b.traffic.offers ≠ [] := by
    intro hnone
    rw [hnone, List.nil_perm] at hoffers
    cases hoffers
  cases phase with
  | created => exact absurd h hsome
  | querying number due => exact absurd h.1 hsome
  | sleeping pause due => exact absurd h hsome
  | tidying pause defect => exact absurd h hsome
  | ended how => exact absurd h hsome
  | sending ticket' event =>
      cases h.1 with
      | answered offers _ => exact absurd offers hsome
      | pending offers reply =>
          rw [offers, List.singleton_perm] at hoffers
          obtain ⟨hparty, rfl⟩ := List.cons.inj hoffers
          simp only [Stream.Party.mk.injEq, PartyId.run.injEq, Stream.Ask.send.injEq] at hparty
          obtain ⟨rfl, rfl, _⟩ := hparty
          exact ⟨rfl, rfl, reply⟩

theorem Posting.serve (h : Posting plan (.held : Point ω) b) (position : Nat) :
    Posting plan (.held : Point ω) { b with traffic := b.traffic.serveAt position } := by
  have hposted : PostedIn plan b b.run.phase := h.stage
  rcases Stream.Traffic.serveAt_turn hposted.sends position with ⟨_, hothers⟩ | ⟨_, hconcern⟩
  · exact h.bystanding hothers
  · cases hconcern with
    | bystanding others => exact h.bystanding ⟨others.offers, others.finished, rfl⟩
    | sent offers left finished _ _ =>
        obtain ⟨hphase, rfl, hreply⟩ := hposted.of_offer offers
        exact h.answered hphase hreply (List.perm_nil.mp left) finished
    | denied offers left finished _ _ =>
        obtain ⟨hphase, rfl, hreply⟩ := hposted.of_offer offers
        exact h.answered hphase hreply (List.perm_nil.mp left) finished
    | withdrawn offers left finished _ =>
        obtain ⟨hphase, rfl, hreply⟩ := hposted.of_offer offers
        exact h.answered hphase hreply (List.perm_nil.mp left) finished

theorem Posting.kill {w : World τ ω} (hheldUp : w.isHeldUp = true)
    (h : Posting plan (.held : Point ω) w.books) : Posting plan (.held : Point ω) w.kill.books := by
  have hmarked {phase : Phase τ} (hphase : w.run.phase = phase)
      (hposted : PostedIn plan { w.books with run := { w.run with killed := true } } phase) :
      Posting plan (.held : Point ω) { w.books with run := { w.run with killed := true } } := by
    rw [← hphase] at hposted
    exact ⟨h.fresh, h.counted, hposted⟩
  rw [World.kill]
  cases hphase : w.run.phase with
  | ended how => exact h
  | created => exact hmarked hphase (postedIn_of_phase hphase h)
  | querying number due => exact hmarked hphase (postedIn_of_phase hphase h)
  | sleeping pause due => exact hmarked hphase (postedIn_of_phase hphase h)
  | tidying pause defect => exact hmarked hphase (postedIn_of_phase hphase h)
  | sending ticket event =>
      obtain ⟨hoffered, hticket, hevent⟩ := postedIn_of_phase hphase h
      have hwaits : w.traffic.replyTo? (.run ticket) = none := by
        simpa [World.isHeldUp, hphase] using hheldUp
      cases hoffered with
      | answered _ reply => exact absurd (reply.symm.trans hwaits) (by simp)
      | pending offers _ =>
          have hwithdrawn := Stream.Traffic.offers_withdraw_run offers
          refine ⟨h.fresh, h.counted, ?_⟩
          simp only [PostedAt, World.books, hphase]
          exact ⟨.pending hwithdrawn hwaits, hticket, hevent⟩

/-- Time passes without a trace on the stream. -/
theorem PostedIn.later {phase : Phase τ} (h : PostedIn plan b phase) (goal : τ) :
    PostedIn plan { b with now := goal } phase := by
  cases phase <;> exact h

variable [Wait ω] [Spans ω τ]

omit [Spans ω τ] in
/-- A run that breaks because it cannot log something has nothing on its way. -/
theorem World.Choke.offers_eq_nil {w w' : World τ ω} {p : Point ω} {d : Defect}
    (cause : World.Choke plan w p w' d) (h : Posting plan p w.books) : w.traffic.offers = [] := by
  cases cause with
  | abort _ _ => exact h.stage
  | outcome _ _ _ => exact h.stage.1
  | complaint phase reply _ _ => exact (postedIn_of_phase phase h).1.of_reply reply
  | grace phase reply _ _ _ => exact (postedIn_of_phase phase h).1.of_reply reply
  | interrupt phase _ _ => exact (postedIn_of_phase phase h).1
  | revoke _ => exact h.stage.1
  | retract phase answered _ _ _ => exact (postedIn_of_phase phase h).1.of_reply answered
  | leave phase _ _ _ => exact postedIn_of_phase phase h

theorem posting_stable : World.Stable plan fun point w => Posting plan point w.books := by
  intro w p p' w' hmove h
  cases hmove with
  | skip phase killed => exact h.shutWith rfl (postedIn_of_phase phase h)
  | start phase alive opening dated =>
      rw [World.books_withStart]
      exact ⟨h.fresh, h.counted, postedIn_of_phase phase h⟩
  | mute phase alive cause =>
      rw [World.books_finish, World.books_withBegin]
      exact ⟨h.fresh, h.counted, postedIn_of_phase phase h⟩
  | choke cause => exact h.breakDown cause.books (cause.offers_eq_nil h)
  | @abort note event reason dated =>
      exact h.send (w.books_note note) h.stage (.inr (isAbort_of_abort? reason))
  | ask noReason =>
      rw [World.books_withQuery]
      exact ⟨h.fresh, congrArg (· + 1) h.counted, h.stage, congrArg (· + 1) h.counted⟩
  | wait duration =>
      rw [World.books_goTo]
      exact ⟨h.fresh, h.counted, h.stage⟩
  | atOnce duration => exact ⟨h.fresh, h.counted, h.stage⟩
  | inTime phase alive reached => exact ⟨h.fresh, h.counted, postedIn_of_phase phase h⟩
  | interrupt phase killed dated =>
      exact h.withFarewell (w.books_closeClient plan) (postedIn_of_phase phase h).1
  | answer =>
      rw [World.books_withAnswer]
      exact ⟨h.fresh, h.counted, h.stage.1, h.stage.2, List.getLast?_concat⟩
  | revoke dated => exact h.withFarewell rfl h.stage.1
  | @fail number result notes d outcome dated =>
      exact h.breakDown (w.books_noteAll notes) h.stage.1
  | @publish number result notes event outcome dated =>
      obtain ⟨hoffers, hnumber, hnewest⟩ := h.stage
      exact h.send (w.books_noteAll notes) hoffers
        (.inl ⟨_, hnewest, hnumber, outcome_of_observation number outcome⟩)
  | finish phase reply terminal =>
      exact h.breakDown rfl ((postedIn_of_phase phase h).1.of_reply reply)
  | grace phase reply first sleeping dated =>
      rw [World.books_withGrace, World.books_withHook, World.run_withHook]
      exact ⟨h.fresh, h.counted, (postedIn_of_phase phase h).1.of_reply reply⟩
  | progress phase reply later dated =>
      rw [World.books_withHook]
      exact ⟨h.fresh, h.counted, (postedIn_of_phase phase h).1.of_reply reply⟩
  | retry phase reply terminal noSnapshot =>
      exact ⟨h.fresh, h.counted, (postedIn_of_phase phase h).1.of_reply reply⟩
  | refuse phase reply => exact h.breakDown rfl ((postedIn_of_phase phase h).1.of_reply reply)
  | retract phase answered unsent undenied dated =>
      exact h.withFarewell rfl ((postedIn_of_phase phase h).1.of_reply answered)
  | sleep positive length =>
      rw [World.books_goTo, World.books_withPause]
      exact ⟨h.fresh, h.counted, h.stage⟩
  | overrun positive length =>
      rw [World.books_goTo, World.books_dismissHelpers, World.books_withPause]
      exact ⟨h.fresh, h.counted, h.stage⟩
  | hurry positive =>
      rw [World.books_record_paused]
      exact ⟨h.fresh, h.counted, h.stage⟩
  | wake phase reason =>
      rw [World.books_goTo, World.books_dismissHelpers]
      exact ⟨h.fresh, h.counted, postedIn_of_phase phase h⟩
  | leave phase tidy killed dated => exact h.withFarewell rfl (postedIn_of_phase phase h)
  | collapse phase tidy alive => exact h.breakDown rfl (postedIn_of_phase phase h)
  | rise phase tidy alive => exact ⟨h.fresh, h.counted, postedIn_of_phase phase h⟩

theorem posting_invariant :
    World.Invariant plan (fun _ => True) fun point w => Posting plan point w.books where
  moves := posting_stable
  helper _ _ before := before
  serve _ before := before.serve _
  passTime _ _ _ before := ⟨before.fresh, before.counted, PostedIn.later before.stage _⟩
  trigger before := by rwa [World.books_trigger]
  kill heldUp before := before.kill heldUp
  ask {w consumer request} _ before :=
    have hothers := Stream.Traffic.bystanding_start w.traffic consumer request
    before.bystanding ⟨hothers.offers, hothers.finished, rfl⟩
  withdraw {w consumer} _ before :=
    have hothers := Stream.Traffic.bystanding_withdraw w.traffic consumer
    before.bystanding ⟨hothers.offers, hothers.finished, rfl⟩

end Posting

end Vigil.Watch
