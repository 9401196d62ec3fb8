import Vigil.Proofs.Stream.Conservation
import Vigil.Watch.World

/-!
# What the run has on its stream

On the stream of a watch only the run offers entries, one at a time, and everybody else takes them.
So serving a party either leaves the offer of the run as it was, or it answers it.
-/

namespace Vigil.Watch

open Vigil.Stream

/-- The party is the run and not one of its consumers. -/
def PartyId.isRun : PartyId → Bool
  | .run _ => true
  | .consumer _ => false

@[simp]
theorem PartyId.isRun_run (ticket : Nat) : (PartyId.run ticket).isRun = true := rfl

@[simp]
theorem PartyId.isRun_consumer (number : Nat) : (PartyId.consumer number).isRun = false := rfl

end Vigil.Watch

namespace Vigil.Stream.Traffic

open Vigil.Watch (PartyId)

variable {ε : Type} {lone : Prop} {t t' : Traffic PartyId ε}

/-- The requests of the run that have not ended. -/
def offers (t : Traffic PartyId ε) : List (Party PartyId ε) :=
  t.parties.filter fun party => party.id.isRun

/-- The run only sends and its consumers never do.  If the run is alone in closing the stream, the
consumers do nothing but receive. -/
def OneSender (lone : Prop) (t : Traffic PartyId ε) : Prop :=
  ∀ party ∈ t.parties,
    party.ask.sends = party.id.isRun ∧
      (lone → party.id.isRun = false → party.ask.receives = true)

/-- What happened did not concern the run. -/
structure Bystanding (t t' : Traffic PartyId ε) : Prop where
  offers : t'.offers.Perm t.offers
  finished : ∃ answers : List (PartyId × Reply ε),
    (∀ answer ∈ answers, answer.1.isRun = false) ∧ t'.finished = t.finished ++ answers
  accepted : t'.accepted = t.accepted

/-- How serving a party concerns the run. -/
inductive Concern (t t' : Traffic PartyId ε) : Prop
  | bystanding (others : Bystanding t t')
  | sent {ticket : Nat} {entry : ε} {rest : List (Party PartyId ε)}
      (offers : t.offers.Perm (⟨.run ticket, .send entry, false⟩ :: rest))
      (left : t'.offers.Perm rest)
      (finished : t'.finished = t.finished ++ [(.run ticket, .sent)])
      (unclosed : t.stream.closed = false) (accepted : t'.accepted = t.accepted ++ [entry])
  | denied {ticket : Nat} {entry : ε} {rest : List (Party PartyId ε)} {d : Denial}
      (offers : t.offers.Perm (⟨.run ticket, .send entry, false⟩ :: rest))
      (left : t'.offers.Perm rest)
      (finished : t'.finished = t.finished ++ [(.run ticket, .denied d)])
      (closed : t.stream.closed = true) (accepted : t'.accepted = t.accepted)
  | withdrawn {ticket : Nat} {entry : ε} {rest : List (Party PartyId ε)}
      (offers : t.offers.Perm (⟨.run ticket, .send entry, true⟩ :: rest))
      (left : t'.offers.Perm rest)
      (finished : t'.finished = t.finished ++ [(.run ticket, .withdrawn)])
      (accepted : t'.accepted = t.accepted)

theorem offers_of_perm {parties : List (Party PartyId ε)} (h : t.parties.Perm parties) :
    t.offers.Perm (parties.filter fun party => party.id.isRun) :=
  h.filter _

/-- Serving a consumer that does not send is nothing to the run. -/
theorem bystanding_of_served {number : Nat} {ask : Ask ε} {gone : Bool}
    {others : List (Party PartyId ε)} (hask : ask.sends = false)
    (hbefore : t.offers.Perm (others.filter fun party => party.id.isRun))
    (hserved : Served t ⟨.consumer number, ask, gone⟩ others t') : Bystanding t t' := by
  cases hserved with
  | withdrawn _ parties finished _ accepted _ =>
      exact ⟨(offers_of_perm parties).trans hbefore.symm, ⟨_, by simp, finished⟩, accepted⟩
  | turnedDown _ _ parties finished _ accepted _ =>
      exact ⟨(offers_of_perm parties).trans hbefore.symm, ⟨_, by simp, finished⟩, accepted⟩
  | met _ outlook parties finished _ accepted _ =>
      rw [outlook.met_of_not_sends hask, List.append_nil] at accepted
      exact ⟨(offers_of_perm parties).trans hbefore.symm, ⟨_, by simp, finished⟩, accepted⟩
  | blocked _ _ parties finished _ accepted _ =>
      have hoffers := (offers_of_perm parties).trans hbefore.symm
      exact ⟨hoffers, ⟨[], by simp, by simpa using finished⟩, accepted⟩

/-- Serving the run answers its offer, unless the buffer is full. -/
theorem concern_of_served {ticket : Nat} {entry : ε} {gone : Bool}
    {others : List (Party PartyId ε)}
    (hbefore : t.offers.Perm
      (⟨.run ticket, .send entry, gone⟩ :: others.filter fun party => party.id.isRun))
    (hserved : Served t ⟨.run ticket, .send entry, gone⟩ others t') : Concern t t' := by
  cases hserved with
  | withdrawn left parties finished _ accepted _ =>
      simp only at left
      subst left
      exact .withdrawn hbefore (offers_of_perm parties) finished accepted
  | met stayed outlook parties finished _ accepted _ =>
      simp only at stayed outlook
      subst stayed
      cases outlook with
      | sent unclosed _ => exact .sent hbefore (offers_of_perm parties) finished unclosed accepted
  | turnedDown stayed outlook parties finished _ accepted _ =>
      simp only at stayed outlook
      subst stayed
      cases outlook with
      | sendDenied closed =>
          exact .denied hbefore (offers_of_perm parties) finished closed accepted
  | blocked _ outlook parties finished _ accepted _ =>
      simp only at outlook
      cases outlook with
      | sendBlocked _ _ =>
          have hoffers := (offers_of_perm parties).trans hbefore.symm
          exact .bystanding ⟨hoffers, ⟨[], by simp, by simpa using finished⟩, accepted⟩

theorem serveAt_concern (hsender : OneSender lone t) (position : Nat) :
    Concern t (t.serveAt position) := by
  cases hparty : t.ready[position]? with
  | none =>
      rw [serveAt_of_none hparty]
      exact .bystanding ⟨.refl _, ⟨[], by simp, by simp⟩, rfl⟩
  | some party =>
      obtain ⟨others, hparties, hserved⟩ := serveAt_served hparty
      have hbefore := offers_of_perm hparties
      obtain ⟨id, ask, gone⟩ := party
      have hask : ask.sends = id.isRun :=
        (hsender ⟨id, ask, gone⟩ (hparties.mem_iff.mpr List.mem_cons_self)).1
      cases id with
      | consumer number =>
          simp only [List.filter_cons, PartyId.isRun_consumer, Bool.false_eq_true, if_false] at hbefore
          exact .bystanding (bystanding_of_served hask hbefore hserved)
      | run ticket =>
          simp only [List.filter_cons, PartyId.isRun_run, if_true] at hbefore
          cases ask with
          | send entry => exact concern_of_served hbefore hserved
          | receive => cases hask
          | collect got => cases hask
          | last newest => cases hask
          | close => cases hask

/-! ### Who is on the stream -/

theorem OneSender.of_perm {parties : List (Party PartyId ε)} (hperm : t'.parties.Perm parties)
    (hparties : ∀ party ∈ parties, party.ask.sends = party.id.isRun ∧
      (lone → party.id.isRun = false → party.ask.receives = true)) : OneSender lone t' :=
  fun party hparty => hparties party (hperm.mem_iff.mp hparty)

theorem OneSender.serveAt (hsender : OneSender lone t) (position : Nat) :
    OneSender lone (t.serveAt position) := by
  cases hparty : t.ready[position]? with
  | none => rwa [serveAt_of_none hparty]
  | some party =>
      obtain ⟨others, hparties, hserved⟩ := serveAt_served hparty
      have hmember := hsender party (hparties.mem_iff.mpr List.mem_cons_self)
      have hothers : ∀ other ∈ others, other.ask.sends = other.id.isRun ∧
          (lone → other.id.isRun = false → other.ask.receives = true) :=
        fun other hother =>
          hsender other (hparties.mem_iff.mpr (List.mem_cons_of_mem _ hother))
      cases hserved with
      | withdrawn _ parties _ _ _ _ => exact .of_perm parties hothers
      | met _ _ parties _ _ _ _ => exact .of_perm parties hothers
      | turnedDown _ _ parties _ _ _ _ => exact .of_perm parties hothers
      | blocked _ outlook parties _ _ _ _ =>
          refine .of_perm parties (List.forall_mem_cons.mpr ⟨?_, hothers⟩)
          simp only [outlook.blocked_sends, outlook.blocked_receives]
          exact hmember

/-- If the consumers do nothing but receive, serving somebody neither closes nor opens the
stream. -/
theorem OneSender.serveAt_closed (hsender : OneSender lone t) (hlone : lone) (position : Nat) :
    (t.serveAt position).stream.closed = t.stream.closed := by
  cases hparty : t.ready[position]? with
  | none => rw [serveAt_of_none hparty]
  | some party =>
      obtain ⟨others, hparties, hserved⟩ := serveAt_served hparty
      obtain ⟨hsends, hreceives⟩ := hsender party (hparties.mem_iff.mpr List.mem_cons_self)
      cases hserved with
      | withdrawn _ _ _ stream _ _ => rw [stream]
      | turnedDown _ _ _ _ stream _ _ => rw [stream]
      | blocked _ outlook _ _ stream _ _ =>
          obtain ⟨hbefore, hafter⟩ := outlook.blocked_unclosed
          rw [stream, hafter, hbefore]
      | met _ outlook _ _ stream _ _ =>
          rw [stream]
          cases hrun : party.id.isRun with
          | false => exact (outlook.met_of_receives (hreceives hlone hrun)).2
          | true =>
              rw [hrun] at hsends
              generalize party.ask = ask at hsends outlook
              cases outlook with
              | sent _ _ => rfl
              | received _ => cases hsends
              | collected _ => cases hsends
              | newest _ => cases hsends
              | shut _ => cases hsends

/-- A closed stream stays closed, whoever is served. -/
theorem serveAt_of_closed (hclosed : t.stream.closed = true) (position : Nat) :
    (t.serveAt position).stream.closed = true := by
  cases hparty : t.ready[position]? with
  | none => rwa [serveAt_of_none hparty]
  | some party =>
      obtain ⟨others, _, hserved⟩ := serveAt_served hparty
      cases hserved with
      | withdrawn _ _ _ stream _ _ => rw [stream, hclosed]
      | turnedDown _ _ _ _ stream _ _ => rw [stream, hclosed]
      | met _ outlook _ _ stream _ _ => rw [stream, outlook.met_of_closed hclosed]
      | blocked _ outlook _ _ _ _ _ =>
          have hopen := outlook.blocked_unclosed.1
          rw [hclosed] at hopen
          cases hopen

theorem OneSender.start {id : PartyId} {ask : Ask ε} (hsender : OneSender lone t)
    (hask : ask.sends = id.isRun) (hreceives : lone → id.isRun = false → ask.receives = true) :
    OneSender lone (t.start id ask) := by
  intro party hparty
  rw [parties_start, List.mem_append, List.mem_singleton] at hparty
  rcases hparty with hparty | rfl
  · exact hsender party hparty
  · exact ⟨hask, hreceives⟩

theorem OneSender.withdraw (hsender : OneSender lone t) (id : PartyId) :
    OneSender lone (t.withdraw id) := by
  refine .of_perm (parties_withdraw t id) ?_
  intro party hparty
  obtain ⟨original, horiginal, rfl⟩ := List.mem_map.mp hparty
  have hmember := hsender original horiginal
  split_ifs <;> exact hmember

/-! ### What does not concern the run -/

theorem bystanding_start (t : Traffic PartyId ε) (consumer : Nat) (ask : Ask ε) :
    Bystanding t (t.start (.consumer consumer) ask) := by
  refine ⟨?_, ⟨[], by simp, by simp [Traffic.start]⟩, rfl⟩
  simp [offers]

theorem bystanding_withdraw (t : Traffic PartyId ε) (consumer : Nat) :
    Bystanding t (t.withdraw (.consumer consumer)) :=
  ⟨filter_parties_withdraw_of_ne t PartyId.isRun rfl, ⟨[], by simp, by simp⟩, rfl⟩

/-! ### What the run does to its stream -/

@[simp]
theorem offers_start_run (t : Traffic PartyId ε) (ticket : Nat) (ask : Ask ε) :
    (t.start (.run ticket) ask).offers = t.offers ++ [⟨.run ticket, ask, false⟩] := by
  simp [offers]

/-- Withdrawing the only offer marks it. -/
theorem offers_withdraw_run {ticket : Nat} {ask : Ask ε} {gone : Bool}
    (hoffers : t.offers = [⟨.run ticket, ask, gone⟩]) :
    (t.withdraw (.run ticket)).offers = [⟨.run ticket, ask, true⟩] := by
  have hperm := filter_parties_withdraw t (.run ticket) PartyId.isRun
  change ((t.withdraw (.run ticket)).offers).Perm (t.offers.map _) at hperm
  rw [hoffers] at hperm
  simpa using hperm

/-- The stream was closed, with some last entries unless it was closed before. -/
structure Closing (last : List ε) (t t' : Traffic PartyId ε) : Prop where
  closed : t'.stream.closed = true
  parties : t'.parties.Perm t.parties
  finished : t'.finished = t.finished
  taken : t'.taken = t.taken
  accepted : t'.accepted = t.accepted ++ last ∨
    t.stream.closed = true ∧ t'.accepted = t.accepted

theorem closing_of_closed (hclosed : t.stream.closed = true) (last : List ε) : Closing last t t :=
  ⟨hclosed, .refl _, rfl, rfl, .inr ⟨hclosed, rfl⟩⟩

theorem closing_close (t : Traffic PartyId ε) : Closing [] t (t.step .close) := by
  cases hclosed : t.stream.closed with
  | true =>
      simp only [step, closeNow_of_closed hclosed]
      exact closing_of_closed hclosed _
  | false =>
      simp only [step, closeNow_of_unclosed hclosed]
      exact ⟨rfl, parties_wake _, rfl, rfl, .inl (List.append_nil _).symm⟩

theorem closing_sendFinal (t : Traffic PartyId ε) (entry : ε) :
    Closing [entry] t (t.step (.sendFinal entry)) := by
  cases hclosed : t.stream.closed with
  | true =>
      simp only [step, sendFinal_of_closed hclosed]
      exact closing_of_closed hclosed _
  | false =>
      simp only [step, sendFinal_of_unclosed hclosed]
      exact ⟨rfl, parties_wake _, rfl, rfl, .inl rfl⟩

namespace Closing

variable {last : List ε}

theorem offers_eq_nil (h : Closing last t t') (hoffers : t.offers = []) : t'.offers = [] := by
  have hperm := offers_of_perm h.parties
  change t'.offers.Perm t.offers at hperm
  rwa [hoffers, List.perm_nil] at hperm

theorem sender (h : Closing last t t') (hsender : OneSender lone t) : OneSender lone t' :=
  .of_perm h.parties hsender

end Closing

/-! ### The answers to the run -/

theorem replyTo?_of_finished_eq {id : PartyId} (hfinished : t'.finished = t.finished) :
    t'.replyTo? id = t.replyTo? id := by
  rw [replyTo?, replyTo?, hfinished]

theorem replyTo?_append_self {id : PartyId} {reply : Reply ε} (hnone : t.replyTo? id = none)
    (hfinished : t'.finished = t.finished ++ [(id, reply)]) : t'.replyTo? id = some reply := by
  rw [replyTo?, Option.map_eq_none_iff] at hnone
  rw [replyTo?, hfinished, List.find?_append, hnone]
  simp

theorem replyTo?_append_of_ne {id other : PartyId} {reply : Reply ε} (hne : other ≠ id)
    (hfinished : t'.finished = t.finished ++ [(other, reply)]) :
    t'.replyTo? id = t.replyTo? id := by
  rw [replyTo?, replyTo?, hfinished, List.find?_append]
  simp [hne]

theorem Bystanding.replyTo? (h : Bystanding t t') (ticket : Nat) :
    t'.replyTo? (.run ticket) = t.replyTo? (.run ticket) := by
  obtain ⟨answers, hothers, hfinished⟩ := h.finished
  have hnone : answers.find? (fun answer => answer.1 == PartyId.run ticket) = none := by
    rw [List.find?_eq_none]
    intro answer hanswer hid
    have hrun := hothers answer hanswer
    rw [beq_iff_eq.mp hid] at hrun
    cases hrun
  rw [Traffic.replyTo?, Traffic.replyTo?, hfinished, List.find?_append, hnone, Option.or_none]

end Vigil.Stream.Traffic
