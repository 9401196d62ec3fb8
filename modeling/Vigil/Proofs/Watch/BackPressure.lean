import Vigil.Proofs.Watch.Account
import Vigil.Proofs.Watch.Passage

/-!
# Back-pressure

A consumer that does not receive holds back the queries: the run asks again only once its last event
was accepted, and the stream accepts no more than were taken off it and still fit.  Nothing is
assumed of the consumers here.  They may send, close and withdraw as they like, and it only holds
back the run the more.
-/

namespace Vigil.Stream.Traffic

open Vigil.Watch (PartyId)

section Sent

variable {ι ε : Type}

/-- How many sends were met. -/
def sent (t : Traffic ι ε) : Nat := t.finished.countP fun answer => answer.2.isSent

theorem sent_of_finished_eq {t t' : Traffic ι ε} (h : t'.finished = t.finished) :
    t'.sent = t.sent := by
  rw [sent, sent, h]

theorem sent_append {t t' : Traffic ι ε} {id : ι} {reply : Reply ε}
    (h : t'.finished = t.finished ++ [(id, reply)]) :
    t'.sent = t.sent + reply.isSent.toNat := by
  rw [sent, sent, h, List.countP_append, List.countP_singleton]
  cases reply.isSent <;> rfl

/-- The sends that were met are no more than what was put on the stream, and no more than what was
taken off it and then fits. -/
structure Throttled (t : Traffic ι ε) : Prop where
  accepted : t.sent ≤ t.accepted.length
  taken : t.sent ≤ t.taken.length + t.stream.capacity

namespace Throttled

variable {t t' : Traffic ι ε} {capacity : Nat}

/-- Nothing was sent, and what was there is still there. -/
theorem mono (h : Throttled t) (hsent : t'.sent = t.sent)
    (haccepted : t.accepted.length ≤ t'.accepted.length)
    (htaken : t.taken.length ≤ t'.taken.length)
    (hcapacity : t'.stream.capacity = t.stream.capacity) :
    Throttled t' :=
  ⟨by have := h.accepted; omega, by have := h.taken; omega⟩

theorem serveAt (h : Throttled t) (hentries : t.taken ++ t.stream.buffer = t.accepted)
    (position : Nat) : Throttled (t.serveAt position) := by
  have hlength := congrArg List.length hentries
  rw [List.length_append] at hlength
  cases hparty : t.ready[position]? with
  | none => rwa [serveAt_of_none hparty]
  | some party =>
      obtain ⟨others, _, hserved⟩ := serveAt_served hparty
      cases hserved with
      | withdrawn _ _ finished stream accepted taken =>
          exact h.mono (sent_append finished) (by simp [accepted]) (by simp [taken])
            (by rw [stream])
      | blocked _ outlook _ finished stream accepted taken =>
          exact h.mono (sent_of_finished_eq finished) (by simp [accepted]) (by simp [taken])
            (by rw [stream, outlook.blocked_capacity])
      | turnedDown _ outlook _ finished stream accepted taken =>
          have hunsent := sent_append finished
          generalize party.ask = ask at outlook
          cases outlook <;>
            exact h.mono hunsent (by simp [accepted]) (by simp [taken])
            (by rw [stream])
      | met _ outlook _ finished stream accepted taken =>
          have hsent := sent_append finished
          have hcapacity := outlook.met_capacity
          generalize party.ask = ask at outlook
          cases outlook with
          | sent _ room =>
              -- the one step that counts needs room, and what lies on the stream was not taken yet
              have hbefore := h.accepted
              have hafter := h.taken
              constructor
              · rw [hsent, accepted, List.length_append]
                simp only [Reply.isSent, Bool.toNat_true, List.length_singleton]
                omega
              · rw [hsent, stream, hcapacity, taken, List.append_nil]
                simp only [Reply.isSent, Bool.toNat_true]
                omega
          | received _ =>
              exact h.mono hsent (by simp [accepted]) (by simp [taken]) (by rw [stream])
          | collected _ =>
              exact h.mono hsent (by simp [accepted]) (by simp [taken]) (by rw [stream])
          | newest _ =>
              exact h.mono hsent (by simp [accepted]) (by simp [taken]) (by rw [stream])
          | shut _ =>
              exact h.mono hsent (by simp [accepted]) (by simp [taken]) (by rw [stream])

theorem step [BEq ι] (h : Throttled t) (hentries : t.taken ++ t.stream.buffer = t.accepted)
    (s : Step ι ε) : Throttled (t.step s) := by
  cases s with
  | start id ask => exact ⟨h.accepted, h.taken⟩
  | serve position => exact h.serveAt hentries position
  | withdraw id => exact ⟨h.accepted, h.taken⟩
  | close =>
      cases hclosed : t.stream.closed with
      | true => simpa only [Traffic.step, closeNow_of_closed hclosed] using h
      | false =>
          simp only [Traffic.step, closeNow_of_unclosed hclosed]
          exact ⟨h.accepted, h.taken⟩
  | sendFinal entry =>
      cases hclosed : t.stream.closed with
      | true => simpa only [Traffic.step, sendFinal_of_closed hclosed] using h
      | false =>
          simp only [Traffic.step, sendFinal_of_unclosed hclosed]
          exact h.mono rfl (by simp [wake]) (Nat.le_refl _) rfl

end Throttled

end Sent

section Tickets

variable {ε : Type} {t t' : Traffic PartyId ε}

/-- A send of the run with an earlier ticket was met. -/
def isSentBefore (bound : Nat) : PartyId × Reply ε → Bool
  | (.run ticket, reply) => decide (ticket < bound) && reply.isSent
  | (.consumer _, _) => false

/-- How many sends of the run with earlier tickets were met. -/
def sentBefore (t : Traffic PartyId ε) (bound : Nat) : Nat :=
  t.finished.countP (isSentBefore bound)

theorem sentBefore_le_sent (t : Traffic PartyId ε) (bound : Nat) : t.sentBefore bound ≤ t.sent := by
  refine List.countP_mono_left fun answer _ hsent => ?_
  obtain ⟨id, reply⟩ := answer
  cases id with
  | consumer number => cases hsent
  | run ticket =>
      simp only [isSentBefore, Bool.and_eq_true] at hsent
      exact hsent.2

/-- The answers to the run are never taken back. -/
theorem sentBefore_le_of_prefix (h : t.finished <+: t'.finished) (bound : Nat) :
    t.sentBefore bound ≤ t'.sentBefore bound :=
  h.sublist.countP_le

theorem countP_isSentBefore_le_succ (answers : List (PartyId × Reply ε)) (bound : Nat) :
    answers.countP (isSentBefore bound) ≤ answers.countP (isSentBefore (bound + 1)) := by
  refine List.countP_mono_left fun answer _ hsent => ?_
  obtain ⟨id, reply⟩ := answer
  cases id with
  | consumer number => cases hsent
  | run ticket =>
      simp only [isSentBefore, Bool.and_eq_true, decide_eq_true_eq] at hsent ⊢
      exact ⟨by omega, hsent.2⟩

theorem sentBefore_le_succ (t : Traffic PartyId ε) (bound : Nat) :
    t.sentBefore bound ≤ t.sentBefore (bound + 1) :=
  countP_isSentBefore_le_succ t.finished bound

/-- A send that was met is one more than those before it. -/
theorem sentBefore_succ_of_sent {ticket : Nat} (h : t.replyTo? (.run ticket) = some .sent) :
    t.sentBefore ticket + 1 ≤ t.sentBefore (ticket + 1) := by
  rw [replyTo?, Option.map_eq_some_iff] at h
  obtain ⟨⟨id, reply⟩, hfind, hreply⟩ := h
  have hid : id = .run ticket := by simpa using List.find?_some hfind
  have hmember := List.mem_of_find?_eq_some hfind
  simp only at hreply
  subst hid hreply
  obtain ⟨earlier, later, hsplit⟩ := List.append_of_mem hmember
  have hold : isSentBefore ticket (PartyId.run ticket, (.sent : Reply ε)) = false := by
    simp [isSentBefore]
  have hnew : isSentBefore (ticket + 1) (PartyId.run ticket, (.sent : Reply ε)) = true := by
    simp [isSentBefore, Reply.isSent]
  have hearlier := countP_isSentBefore_le_succ earlier ticket
  have hlater := countP_isSentBefore_le_succ later ticket
  rw [sentBefore, sentBefore, hsplit, List.countP_append, List.countP_append,
    List.countP_cons_of_neg (by simp [hold]), List.countP_cons_of_pos hnew]
  omega

end Tickets

end Vigil.Stream.Traffic

namespace Vigil.Watch

open Vigil.Stream (Traffic)
open Vigil.Stream.Traffic (Conserved Throttled)

variable {τ ω : Type}

/-- Every query that was begun led to a send that was met. -/
def UpToDate (b : Books τ) : Prop := b.asked ≤ b.traffic.sentBefore b.run.sends

/-- So did every query but one. -/
def OneAhead (b : Books τ) : Prop := b.asked ≤ b.traffic.sentBefore b.run.sends + 1

theorem UpToDate.oneAhead {b : Books τ} (h : UpToDate b) : OneAhead b := Nat.le_succ_of_le h

theorem UpToDate.mono {b b' : Books τ} (h : UpToDate b) (hasked : b'.asked = b.asked)
    (hsends : b'.run.sends = b.run.sends)
    (hfinished : b.traffic.finished <+: b'.traffic.finished) : UpToDate b' := by
  rw [UpToDate, hasked, hsends]
  exact Nat.le_trans h (Traffic.sentBefore_le_of_prefix hfinished _)

theorem OneAhead.mono {b b' : Books τ} (h : OneAhead b) (hasked : b'.asked = b.asked)
    (hsends : b'.run.sends = b.run.sends)
    (hfinished : b.traffic.finished <+: b'.traffic.finished) : OneAhead b' := by
  rw [OneAhead, hasked, hsends]
  exact Nat.le_trans h (Nat.succ_le_succ (Traffic.sentBefore_le_of_prefix hfinished _))

/-- How far the queries are ahead of the sends while the run is held up in a phase. -/
def PacedIn (b : Books τ) : Phase τ → Prop
  | .querying _ _ => OneAhead b
  | .sending ticket _ => b.run.sends = ticket + 1 ∧ b.asked ≤ b.traffic.sentBefore ticket + 1
  | .ended _ => OneAhead b
  | _ => UpToDate b

/-- How far the queries are ahead of the sends at a point of the control flow. -/
def Paced (b : Books τ) : Point ω → Prop
  | .held => PacedIn b b.run.phase
  | .deciding => UpToDate b
  | .pausing _ => UpToDate b
  | _ => OneAhead b

theorem PacedIn.mono {b b' : Books τ} {phase : Phase τ} (h : PacedIn b phase)
    (hasked : b'.asked = b.asked) (hsends : b'.run.sends = b.run.sends)
    (hfinished : b.traffic.finished <+: b'.traffic.finished) : PacedIn b' phase := by
  cases phase with
  | created => exact UpToDate.mono h hasked hsends hfinished
  | querying number due => exact OneAhead.mono h hasked hsends hfinished
  | sleeping pause due => exact UpToDate.mono h hasked hsends hfinished
  | tidying pause defect => exact UpToDate.mono h hasked hsends hfinished
  | ended how => exact OneAhead.mono h hasked hsends hfinished
  | sending ticket event =>
      refine ⟨hsends.trans h.1, ?_⟩
      rw [hasked]
      exact Nat.le_trans h.2 (Nat.succ_le_succ (Traffic.sentBefore_le_of_prefix hfinished _))

/-- Wherever the run is held up, the queries are at most one ahead. -/
theorem PacedIn.oneAhead {b : Books τ} {phase : Phase τ} (h : PacedIn b phase) : OneAhead b := by
  cases phase with
  | created => exact UpToDate.oneAhead h
  | querying number due => exact h
  | sleeping pause due => exact UpToDate.oneAhead h
  | tidying pause defect => exact UpToDate.oneAhead h
  | ended how => exact h
  | sending ticket event =>
      rw [OneAhead, h.1]
      exact Nat.le_trans h.2 (Nat.succ_le_succ (Traffic.sentBefore_le_succ _ _))

theorem Paced.oneAhead {b : Books τ} {point : Point ω} (h : Paced b point) : OneAhead b := by
  cases point with
  | held => exact PacedIn.oneAhead h
  | deciding => exact UpToDate.oneAhead h
  | pausing delay => exact UpToDate.oneAhead h
  | _ => exact h

/-- A send that was met catches up. -/
theorem PacedIn.upToDate {b : Books τ} {ticket : Nat} {event : Event τ}
    (h : PacedIn b (.sending ticket event))
    (hreply : b.traffic.replyTo? (.run ticket) = some .sent) : UpToDate b := by
  rw [UpToDate, h.1]
  exact Nat.le_trans h.2 (Traffic.sentBefore_succ_of_sent hreply)

theorem pacedIn_of_phase {w : World τ ω} {phase : Phase τ} (hphase : w.run.phase = phase)
    (h : Paced w.books (.held : Point ω)) : PacedIn w.books phase := by
  rw [← hphase]
  exact h

/-- A run that ends is not asked to catch up. -/
theorem Paced.of_ended {w w' : World τ ω} {how : Ending} (h : OneAhead w.books)
    (hphase : w'.run.phase = .ended how) (hasked : w'.books.asked = w.books.asked)
    (hsends : w'.books.run.sends = w.books.run.sends)
    (hfinished : w.traffic.finished <+: w'.traffic.finished) :
    Paced w'.books (.held : Point ω) := by
  have hahead : OneAhead w'.books := h.mono hasked hsends hfinished
  have hended : w'.books.run.phase = .ended how := hphase
  rw [Paced, hended]
  exact hahead

theorem Paced.of_send {w w' : World τ ω} (h : OneAhead w.books) (event : Event τ)
    (hbooks : w'.books = w.books)
    (hfinished : w.traffic.finished <+: (w'.send event).traffic.finished) :
    Paced (w'.send event).books (.held : Point ω) := by
  have hasked : w'.books.asked = w.books.asked := by rw [hbooks]
  have hsends : w'.run.sends = w.books.run.sends := congrArg (fun b => b.run.sends) hbooks
  refine ⟨rfl, ?_⟩
  change w'.books.asked ≤ (w'.send event).traffic.sentBefore w'.run.sends + 1
  rw [hasked, hsends]
  exact Nat.le_trans h (Nat.succ_le_succ (Traffic.sentBefore_le_of_prefix hfinished _))

variable [Clock τ] [Wait ω] [Spans ω τ] {plan : Plan τ ω}

theorem World.Move.finished_prefix {w w' : World τ ω} {p p' : Point ω}
    (h : World.Move plan w p p' w') : w.traffic.finished <+: w'.traffic.finished := by
  obtain ⟨steps, _, hsteps⟩ := h.passage
  rw [hsteps]
  exact Traffic.finished_prefix_stepAll w.traffic steps

theorem paced_stable : World.Stable plan fun point w => Paced w.books point := by
  intro w p p' w' hmove h
  have hfinished := hmove.finished_prefix
  cases hmove with
  | skip phase killed =>
      refine .of_ended (pacedIn_of_phase phase h).oneAhead rfl ?_ ?_ hfinished <;>
        simp [World.books_shutWith]
  | @start line phase alive opening dated =>
      have hpaced : UpToDate w.books := pacedIn_of_phase phase h
      exact hpaced.mono (by simp [World.books_withStart])
        (congrArg (fun b => b.run.sends) (w.books_withStart line)) hfinished
  | mute phase alive cause =>
      refine .of_ended h.oneAhead rfl ?_ ?_ hfinished <;> rw [World.books_finish, w.books_withBegin]
      rfl
  | choke cause =>
      refine .of_ended h.oneAhead rfl ?_ ?_ hfinished <;>
        simp [World.breakDown, World.books_shut, cause.books]
  | @abort note event reason dated =>
      have hpaced : UpToDate w.books := h
      exact .of_send hpaced.oneAhead event (w.books_note note) hfinished
  | ask noReason =>
      have hpaced : UpToDate w.books := h
      rw [World.books_withQuery]
      exact Nat.succ_le_succ hpaced
  | wait duration => exact h
  | atOnce duration => exact h
  | inTime phase alive reached => exact pacedIn_of_phase phase h
  | interrupt phase killed dated =>
      refine .of_ended (pacedIn_of_phase phase h).oneAhead rfl ?_ ?_ hfinished <;>
        simp [World.withFarewell, World.books_shutWith]
  | answer =>
      rw [World.books_withAnswer]
      exact h
  | revoke dated =>
      refine .of_ended h rfl ?_ ?_ hfinished <;> simp [World.withFarewell, World.books_shutWith]
  | @fail _ _ notes _ outcome dated =>
      refine .of_ended h rfl ?_ ?_ hfinished <;> simp [World.breakDown, World.books_shut]
  | @publish _ _ notes event outcome dated =>
      exact .of_send h event (w.books_noteAll notes) hfinished
  | finish phase reply terminal =>
      refine .of_ended (pacedIn_of_phase phase h).oneAhead rfl ?_ ?_ hfinished <;>
        simp [World.books_shut]
  | grace phase reply first sleeping dated =>
      rw [World.books_withGrace, World.books_withHook, World.run_withHook]
      exact (pacedIn_of_phase phase h).upToDate reply
  | progress phase reply later dated =>
      have hpaced := (pacedIn_of_phase phase h).upToDate reply
      rw [World.books_withHook]
      exact hpaced
  | retry phase reply terminal noSnapshot => exact (pacedIn_of_phase phase h).upToDate reply
  | refuse phase reply =>
      refine .of_ended (pacedIn_of_phase phase h).oneAhead rfl ?_ ?_ hfinished <;>
        simp [World.breakDown, World.books_shut]
  | retract phase answered unsent undenied dated =>
      refine .of_ended (pacedIn_of_phase phase h).oneAhead rfl ?_ ?_ hfinished <;>
        simp [World.withFarewell, World.books_shutWith]
  | sleep positive length =>
      rw [World.books_goTo, World.books_withPause]
      exact h
  | overrun positive length =>
      rw [World.books_goTo, World.books_dismissHelpers, World.books_withPause]
      exact h
  | hurry positive =>
      rw [World.books_record_paused]
      exact h
  | wake phase reason =>
      rw [World.books_goTo, World.books_dismissHelpers]
      exact pacedIn_of_phase phase h
  | leave phase tidy killed dated =>
      refine .of_ended (pacedIn_of_phase phase h).oneAhead rfl ?_ ?_ hfinished <;>
        simp [World.withFarewell, World.books_shutWith]
  | collapse phase tidy alive =>
      refine .of_ended (pacedIn_of_phase phase h).oneAhead rfl ?_ ?_ hfinished <;>
        simp [World.breakDown, World.books_shut]
  | rise phase tidy alive => exact pacedIn_of_phase phase h

theorem paced_invariant :
    World.Invariant plan (fun _ => True) fun point w => Paced w.books point where
  moves := paced_stable
  helper _ _ before := before
  serve _ before :=
    PacedIn.mono before rfl rfl (Traffic.finished_prefix_step _ (.serve _))
  passTime _ _ _ before := PacedIn.mono before rfl rfl List.prefix_rfl
  trigger before := by rwa [World.books_trigger]
  kill {w} _ before := by
    rw [World.kill]
    split
    · exact before
    · exact PacedIn.mono before rfl rfl List.prefix_rfl
    · exact PacedIn.mono before rfl rfl List.prefix_rfl
  ask _ before := PacedIn.mono before rfl rfl List.prefix_rfl
  withdraw _ before := PacedIn.mono before rfl rfl List.prefix_rfl

theorem throttled_invariant {capacity : Nat} :
    World.Invariant plan (fun _ => True)
      fun _ w => Conserved capacity w.traffic ∧ Throttled w.traffic :=
  stream_invariant (fun t => Conserved capacity t ∧ Throttled t)
    fun _ s h => ⟨h.1.step s, h.2.step h.1.entries s⟩

/-- At every moment of every watch, at most one query more was begun than events were taken off the
stream and still fit on it. -/
theorem queries_le_taken_add_capacity {capacity : Int} {stream : Stream (Event τ)} {now : τ}
    {cancellation : Cancellation τ} {stopped : Bool} {actions : List (Action τ)} {w : World τ ω}
    (hstream : Stream.create capacity = .ok stream)
    (hact : (World.start now cancellation stopped stream).actAll? plan actions = some w) :
    (w.queryTimes.length : Int) ≤ w.traffic.taken.length + capacity + 1 := by
  obtain ⟨rfl, hcapacity⟩ := Stream.create_eq_ok hstream
  have hfree : ∀ action ∈ actions, True := fun _ _ => trivial
  have hstart : Conserved capacity.toNat
        (Stream.Traffic.onto ⟨capacity.toNat, [], false⟩ : Traffic PartyId (Event τ)) ∧
      Throttled (Stream.Traffic.onto ⟨capacity.toNat, [], false⟩ : Traffic PartyId (Event τ)) :=
    ⟨⟨rfl, rfl, by constructor <;> simp [Stream.Traffic.onto]⟩, Nat.zero_le _, Nat.zero_le _⟩
  obtain ⟨hconserved, hthrottled⟩ := throttled_invariant.actAll hfree hact hstart
  have hpaced : PacedIn w.books w.run.phase := by
    refine paced_invariant.actAll hfree hact ?_
    exact Nat.zero_le _
  have hahead : w.queryTimes.length ≤ w.traffic.sentBefore w.run.sends + 1 := hpaced.oneAhead
  have hsent := w.traffic.sentBefore_le_sent w.run.sends
  have htaken := hthrottled.taken
  rw [hconserved.holds] at htaken
  omega

/-- A watch that never pauses, over a service that always fails at once. -/
def tireless : Plan Int Int where
  config := ⟨"demo", .plain "up", [], 0, 0⟩
  strategy := recovering.strategy
  services _ := ⟨none, [], .failure (.foreign "TimeoutError" [])⟩
  hook := none
  heard := true

/-- The bound is met: one event was received, one lies on the stream, and the outcome of one more
query waits for room. -/
theorem queries_of_tireless :
    ∃ w : World Int Int,
      Stream.create 1 = .ok (⟨1, [], false⟩ : Stream (Event Int)) ∧
      (World.start 0 ⟨false, none⟩ false ⟨1, [], false⟩).actAll? tireless
        [.run, .serve 0, .run, .serve 0, .ask 0 .receive, .serve 0, .serve 0, .run, .serve 0] =
          some w ∧
      w.isSettled = true ∧ w.queryTimes.length = 3 ∧ w.traffic.taken.length = 1 ∧
      (w.queryTimes.length : Int) ≤ w.traffic.taken.length + 1 + 1 := by
  have hstream : Stream.create 1 = .ok (⟨1, [], false⟩ : Stream (Event Int)) := rfl
  obtain ⟨w, hact, hsettled, hqueries, htaken⟩ : ∃ w : World Int Int,
      (World.start 0 ⟨false, none⟩ false ⟨1, [], false⟩).actAll? tireless
        [.run, .serve 0, .run, .serve 0, .ask 0 .receive, .serve 0, .serve 0, .run, .serve 0] =
          some w ∧
      w.isSettled = true ∧ w.queryTimes.length = 3 ∧ w.traffic.taken.length = 1 :=
    ⟨_, rfl, rfl, rfl, rfl⟩
  exact ⟨w, hstream, hact, hsettled, hqueries, htaken, queries_le_taken_add_capacity hstream hact⟩

end Vigil.Watch
