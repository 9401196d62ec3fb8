import Vigil.Proofs.Watch.Passage

/-!
# A consumer that waits for the end

A consumer that takes everything and keeps the newest entry gets the last event of all, and gets it
once the stream is closed.
-/

namespace Vigil.Stream.Traffic

open Vigil.Watch (OfRun PartyId)

variable {τ ε : Type} {t t' : Traffic PartyId ε}

/-- The requests of consumers that have not ended. -/
def consumers (t : Traffic PartyId ε) : List (Party PartyId ε) :=
  t.parties.filter fun party => !party.id.isRun

/-- The only consumer follows the stream to its end. -/
inductive Follower (t : Traffic PartyId ε) : Prop
  | following (consumers : t.consumers = [⟨.consumer 0, .last t.taken.getLast?, false⟩])
      (unanswered : t.replyTo? (.consumer 0) = none)
  | done (consumers : t.consumers = []) (closed : t.stream.closed = true)
      (reply : t.replyTo? (.consumer 0) = some (.newest t.accepted.getLast?))

/-- What leaves the consumer alone. -/
theorem Follower.frame (h : Follower t) (hconsumers : t'.consumers.Perm t.consumers)
    (htaken : t'.taken = t.taken)
    (hreply : t'.replyTo? (.consumer 0) = t.replyTo? (.consumer 0))
    (hclosed : t.stream.closed = true → t'.stream.closed = true ∧ t'.accepted = t.accepted) :
    Follower t' := by
  cases h with
  | following consumers unanswered =>
      rw [consumers, List.perm_singleton] at hconsumers
      exact .following (by rw [hconsumers, htaken]) (by rw [hreply, unanswered])
  | done consumers closed reply =>
      rw [consumers, List.perm_nil] at hconsumers
      obtain ⟨hstays, haccepted⟩ := hclosed closed
      exact .done hconsumers hstays (by rw [hreply, haccepted, reply])

theorem consumers_of_perm {parties : List (Party PartyId ε)} (h : t.parties.Perm parties) :
    t.consumers.Perm (parties.filter fun party => !party.id.isRun) :=
  h.filter _

theorem Follower.closing {last : List ε} (h : Follower t) (hclosing : Closing last t t')
    (hdone : t.stream.closed = true → t' = t) : Follower t' := by
  apply h.frame (consumers_of_perm hclosing.parties) hclosing.taken
    (replyTo?_of_finished_eq hclosing.finished)
  intro hclosed
  rw [hdone hclosed]
  exact ⟨hclosed, rfl⟩

/-- The run offers an entry. -/
theorem Follower.start (h : Follower t) (ticket : Nat) (ask : Ask ε) :
    Follower (t.start (.run ticket) ask) := by
  refine h.frame ?_ rfl rfl fun hclosed => ⟨hclosed, rfl⟩
  simp [consumers]

/-- The run withdraws its offer. -/
theorem Follower.withdraw (h : Follower t) (ticket : Nat) :
    Follower (t.withdraw (.run ticket)) :=
  h.frame (filter_parties_withdraw_of_ne t (fun id => !id.isRun) rfl) rfl rfl
    fun hclosed => ⟨hclosed, rfl⟩

section Serve

variable {capacity position : Nat}

/-- Serving the run leaves the consumer alone. -/
theorem Follower.serve_run (h : Follower t) {ticket : Nat} {ask : Ask ε} {gone : Bool}
    {others : List (Party PartyId ε)} (hask : ask.sends = true)
    (hparties : t.parties.Perm (⟨.run ticket, ask, gone⟩ :: others))
    (hserved : Served t ⟨.run ticket, ask, gone⟩ others t') : Follower t' := by
  have hbefore := consumers_of_perm hparties
  simp only [List.filter_cons, Watch.PartyId.isRun_run, Bool.not_true, Bool.false_eq_true, if_false]
    at hbefore
  have hother : PartyId.run ticket ≠ .consumer 0 := nofun
  cases hserved with
  | withdrawn _ parties finished stream accepted taken =>
      apply h.frame ((consumers_of_perm parties).trans hbefore.symm) taken
        (replyTo?_append_of_ne hother finished)
      intro hclosed
      rw [stream, accepted]
      exact ⟨hclosed, rfl⟩
  | turnedDown _ _ parties finished stream accepted taken =>
      apply h.frame ((consumers_of_perm parties).trans hbefore.symm) taken
        (replyTo?_append_of_ne hother finished)
      intro hclosed
      rw [stream, accepted]
      exact ⟨hclosed, rfl⟩
  | met _ outlook parties finished stream accepted taken =>
      simp only at outlook
      cases outlook with
      | sent unclosed _ =>
          apply h.frame ((consumers_of_perm parties).trans hbefore.symm) (by simp [taken])
            (replyTo?_append_of_ne hother finished)
          intro hclosed
          rw [unclosed] at hclosed
          cases hclosed
      | received _ => cases hask
      | collected _ => cases hask
      | newest _ => cases hask
      | shut _ => cases hask
  | blocked _ outlook parties finished stream accepted taken =>
      simp only at outlook
      cases outlook with
      | sendBlocked unclosed _ =>
          refine h.frame ?_ (by simp [taken]) (replyTo?_of_finished_eq finished) fun hclosed => ?_
          · refine (consumers_of_perm parties).trans ?_
            simpa [List.filter_cons] using hbefore.symm
          · rw [unclosed] at hclosed
            cases hclosed
      | receiveBlocked _ _ => cases hask
      | collectBlocked _ => cases hask
      | lastBlocked _ => cases hask

/-- Whenever the consumer looks, it keeps the newest entry; at the closed stream it is done. -/
theorem Follower.serve_consumer (h : Follower t) (hentries : t.taken ++ t.stream.buffer = t.accepted)
    {party : Party PartyId ε} {others : List (Party PartyId ε)}
    (hconsumer : party.id.isRun = false) (hparties : t.parties.Perm (party :: others))
    (hserved : Served t party others t') : Follower t' := by
  have hbefore := consumers_of_perm hparties
  simp only [List.filter_cons, hconsumer, Bool.not_false, if_true] at hbefore
  cases h with
  | done consumers _ _ =>
      rw [consumers, List.nil_perm] at hbefore
      cases hbefore
  | following consumers unanswered =>
      rw [consumers, List.singleton_perm] at hbefore
      obtain ⟨rfl, hothers⟩ := List.cons.inj hbefore
      have hnewest : t.stream.buffer.getLast?.or t.taken.getLast? = t.accepted.getLast? := by
        rw [← hentries, List.getLast?_append]
      cases hserved with
      | withdrawn left _ _ _ _ _ => cases left
      | turnedDown _ outlook _ _ _ _ _ => cases outlook
      | met _ outlook parties finished stream accepted _ =>
          simp only at outlook
          cases outlook with
          | newest closed =>
              have hnone := consumers_of_perm parties
              rw [← hothers, List.perm_nil] at hnone
              refine .done hnone (by rw [stream]; exact closed) ?_
              rw [replyTo?_append_self unanswered finished, accepted, List.append_nil, hnewest]
      | blocked _ outlook parties finished _ _ taken =>
          simp only at outlook
          cases outlook with
          | lastBlocked _ =>
              have hone := consumers_of_perm parties
              simp only [List.filter_cons, Watch.PartyId.isRun_consumer, Bool.not_false, if_true] at hone
              rw [← hothers, List.perm_singleton] at hone
              refine .following ?_ ((replyTo?_of_finished_eq finished).trans unanswered)
              rw [hone, taken, List.getLast?_append]

end Serve

/-- One consumer follows a stream on which only the run puts anything. -/
structure Followed (capacity : Nat) (t : Traffic PartyId (Event τ)) : Prop where
  sender : OneSender False t
  conserved : Conserved capacity t
  follower : Follower t

namespace Followed

variable {capacity : Nat} {t : Traffic PartyId (Event τ)}

theorem serveAt (h : Followed capacity t) (position : Nat) :
    Followed capacity (t.serveAt position) := by
  refine ⟨h.sender.serveAt position, h.conserved.serveAt position, ?_⟩
  cases hparty : t.ready[position]? with
  | none =>
      rw [serveAt_of_none hparty]
      exact h.follower
  | some party =>
      obtain ⟨others, hparties, hserved⟩ := serveAt_served hparty
      have hmember := hparties.mem_iff.mpr List.mem_cons_self
      have hsends := (h.sender party hmember).1
      obtain ⟨id, ask, gone⟩ := party
      cases id with
      | run ticket => exact h.follower.serve_run hsends hparties hserved
      | consumer number =>
          exact h.follower.serve_consumer h.conserved.entries rfl hparties hserved

theorem step {s : Step PartyId (Event τ)} (hs : OfRun s) (h : Followed capacity t) :
    Followed capacity (t.step s) := by
  have hconserved := h.conserved.step s
  cases s with
  | start id ask =>
      cases id with
      | consumer number => exact hs.elim
      | run ticket =>
          cases ask with
          | send event =>
              exact ⟨h.sender.start rfl nofun, hconserved, h.follower.start ticket (.send event)⟩
          | receive => exact hs.elim
          | collect got => exact hs.elim
          | last newest => exact hs.elim
          | close => exact hs.elim
  | serve position => exact h.serveAt position
  | withdraw id =>
      cases id with
      | consumer number => exact hs.elim
      | run ticket => exact ⟨h.sender.withdraw _, hconserved, h.follower.withdraw ticket⟩
  | close =>
      have hclosing := closing_close t
      refine ⟨hclosing.sender h.sender, hconserved, h.follower.closing hclosing fun hclosed => ?_⟩
      simp only [Traffic.step, closeNow_of_closed hclosed]
  | sendFinal event =>
      have hclosing := closing_sendFinal t event
      refine ⟨hclosing.sender h.sender, hconserved, h.follower.closing hclosing fun hclosed => ?_⟩
      simp only [Traffic.step, sendFinal_of_closed hclosed]

end Followed

end Vigil.Stream.Traffic

namespace Vigil.Watch

open Vigil.Stream (Reply)
open Vigil.Stream.Traffic (Followed)

variable {τ ω : Type} [Clock τ] [Wait ω] [Spans ω τ] {plan : Plan τ ω}

/-- A caller who waits for the end of a watch is told once the stream is closed, and is told its
last event. -/
theorem newest_of_replyTo? {capacity : Int} {stream : Stream (Event τ)} {now : τ}
    {cancellation : Cancellation τ} {stopped : Bool} {actions : List (Action τ)} {w : World τ ω}
    {reply : Reply (Event τ)} (hstream : Stream.create capacity = .ok stream)
    (hquiet : ∀ action ∈ actions, action.IsQuiet)
    (hact : (World.start now cancellation stopped stream).actAll? plan
      (.ask 0 (.last none) :: actions) = some w)
    (hreply : w.replyTo? 0 = some reply) :
    w.traffic.stream.closed = true ∧ reply = .newest w.traffic.accepted.getLast? := by
  obtain ⟨rfl, _⟩ := Stream.create_eq_ok hstream
  have hstart : Followed capacity.toNat
      ((Stream.Traffic.onto ⟨capacity.toNat, [], false⟩).start (.consumer 0)
        (.last (none : Option (Event τ)))) := by
    refine ⟨?_, ⟨rfl, rfl, by constructor <;> simp [Stream.Traffic.onto, Stream.Traffic.start]⟩,
      .following rfl rfl⟩
    intro party hparty
    rw [Stream.Traffic.parties_start, Stream.Traffic.parties_onto, List.nil_append,
      List.mem_singleton] at hparty
    subst hparty
    exact ⟨rfl, False.elim⟩
  have hfollowed : Followed capacity.toNat w.traffic :=
    (quiet_invariant fun _ _ hs h => h.step hs).actAll hquiet hact hstart
  cases hfollowed.follower with
  | following _ unanswered =>
      rw [World.replyTo?, unanswered] at hreply
      cases hreply
  | done _ closed answer =>
      rw [World.replyTo?, answer, Option.some.injEq] at hreply
      exact ⟨closed, hreply.symm⟩

end Vigil.Watch
