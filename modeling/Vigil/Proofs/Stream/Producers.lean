import Vigil.Proofs.Stream.Readers
import Vigil.Proofs.Stream.Recast

/-!
# A single consumer among producers

Producers put entries on a stream and close it, and take nothing off it.  So whatever they do, what
the consumer asks for and what it was told stays as it was, and a stream that is closed and empty
stays so.
-/

namespace Vigil.Stream

variable {ι ε : Type}

/-- The step is one of the producers, or somebody's look: nothing is asked for that a consumer asks
for, and the consumer is let alone. -/
def Step.produces [BEq ι] (c : ι) : Step ι ε → Bool
  | .start id ask => !(id == c) && !ask.receives
  | .withdraw id => !(id == c)
  | _ => true

theorem digest_of_producer {ask : Ask ε} (hask : ask.receives = false) : ask.digest = ask := by
  cases ask with
  | collect taken => cases hask
  | _ => rfl

theorem digest_of_produces [BEq ι] {c : ι} {s : Step ι ε} (hs : s.produces c = true) :
    s.digest = s := by
  cases s with
  | start id ask =>
      simp only [Step.produces, Bool.and_eq_true, Bool.not_eq_true'] at hs
      rw [Step.digest, digest_of_producer hs.2]
  | _ => rfl

namespace Outlook

variable {s stream : Stream ε} {ask ask' : Ask ε} {reply : Reply ε} {accepted taken : List ε}

theorem met_taken (h : Outlook s ask (.met stream reply accepted taken))
    (hask : ask.receives = false) : taken = [] := by
  cases h with
  | sent _ _ => rfl
  | shut _ => rfl
  | received _ => cases hask
  | collected _ => cases hask
  | newest _ => cases hask

theorem blocked_taken (h : Outlook s ask (.blocked stream ask' taken))
    (hask : ask.receives = false) : taken = [] ∧ stream = s := by
  cases h with
  | sendBlocked _ _ => exact ⟨rfl, rfl⟩
  | receiveBlocked _ _ => cases hask
  | collectBlocked _ => cases hask
  | lastBlocked _ => cases hask

theorem met_digest (h : Outlook s ask (.met stream reply accepted taken))
    (hask : ask.receives = false) : reply.digest = reply := by
  cases h with
  | sent _ _ => rfl
  | shut _ => rfl
  | received _ => cases hask
  | collected _ => cases hask
  | newest _ => cases hask

theorem turnedDown_digest (h : Outlook s ask (.turnedDown reply)) : reply.digest = reply := by
  cases h <;> rfl

end Outlook

namespace Traffic

variable [BEq ι] {c : ι} {t t' : Traffic ι ε}

/-! ### What the consumer is told -/

/-- The answers that a party got, in order. -/
def repliesTo (t : Traffic ι ε) (id : ι) : List (Reply ε) :=
  (t.finished.filter fun answer => answer.1 == id).map Prod.snd

theorem replyTo?_eq_head? (t : Traffic ι ε) (id : ι) : t.replyTo? id = (t.repliesTo id).head? := by
  rw [replyTo?, repliesTo, List.head?_map, List.head?_filter]

theorem repliesTo_of_finished {answers : List (ι × Reply ε)} (id : ι)
    (hfinished : t'.finished = t.finished ++ answers) :
    t'.repliesTo id =
      t.repliesTo id ++ (answers.filter fun answer => answer.1 == id).map Prod.snd := by
  rw [repliesTo, hfinished, List.filter_append, List.map_append, repliesTo]

/-- Only looks take entries and give answers. -/
theorem step_still {s : Step ι ε} (hs : ∀ position, s ≠ .serve position) :
    (t.step s).finished = t.finished ∧ (t.step s).taken = t.taken := by
  cases s with
  | start id ask => exact ⟨rfl, rfl⟩
  | serve position => exact absurd rfl (hs position)
  | withdraw id => exact ⟨rfl, rfl⟩
  | close =>
      cases hclosed : t.stream.closed with
      | true => simp only [step, closeNow_of_closed hclosed, and_self]
      | false => simp only [step, closeNow_of_unclosed hclosed, wake, and_self]
  | sendFinal entry =>
      cases hclosed : t.stream.closed with
      | true => simp only [step, sendFinal_of_closed hclosed, and_self]
      | false => simp only [step, sendFinal_of_unclosed hclosed, wake, and_self]

/-! ### All others are producers -/

/-- Nobody but the consumer takes anything, or was told what a consumer is told. -/
structure Produced (c : ι) (t : Traffic ι ε) : Prop where
  asks : ∀ party ∈ t.parties, (party.id == c) = false → party.ask.receives = false
  replies : ∀ answer ∈ t.finished, (answer.1 == c) = false → answer.2.digest = answer.2

namespace Produced

theorem onto (stream : Stream ε) : Produced c (onto stream : Traffic ι ε) := ⟨nofun, nofun⟩

theorem of_parties {parties : List (Party ι ε)} (h : Produced c t)
    (hparties : t'.parties.Perm parties)
    (hasks : ∀ party ∈ parties, (party.id == c) = false → party.ask.receives = false)
    (hfinished : t'.finished = t.finished) : Produced c t' where
  asks party hparty := hasks party (hparties.mem_iff.mp hparty)
  replies answer hanswer := h.replies answer (hfinished ▸ hanswer)

theorem serveAt (h : Produced c t) (position : Nat) : Produced c (t.serveAt position) := by
  cases hparty : t.ready[position]? with
  | none => rwa [serveAt_of_none hparty]
  | some party =>
      obtain ⟨others, hparties, hserved⟩ := serveAt_served hparty
      have hask : (party.id == c) = false → party.ask.receives = false :=
        h.asks party (hparties.mem_iff.mpr List.mem_cons_self)
      have hothers : ∀ other ∈ others, (other.id == c) = false → other.ask.receives = false :=
        fun other hother => h.asks other (hparties.mem_iff.mpr (List.mem_cons_of_mem _ hother))
      have hanswered {reply : Reply ε} (hthose : (t.serveAt position).parties.Perm others)
          (hfinished : (t.serveAt position).finished = t.finished ++ [(party.id, reply)])
          (hreply : (party.id == c) = false → reply.digest = reply) :
          Produced c (t.serveAt position) := by
        refine ⟨fun other hmem => hothers other (hthose.mem_iff.mp hmem), ?_⟩
        intro answer hanswer hne
        rw [hfinished, List.mem_append, List.mem_singleton] at hanswer
        rcases hanswer with hold | rfl
        · exact h.replies answer hold hne
        · exact hreply hne
      cases hserved with
      | withdrawn _ those finished _ _ _ => exact hanswered those finished fun _ => rfl
      | met _ outlook those finished _ _ _ =>
          exact hanswered those finished fun hne => outlook.met_digest (hask hne)
      | turnedDown _ outlook those finished _ _ _ =>
          exact hanswered those finished fun _ => outlook.turnedDown_digest
      | blocked _ outlook those finished _ _ _ =>
          refine h.of_parties those (fun other hmem hne => ?_) finished
          rcases List.mem_cons.mp hmem with rfl | hmem
          · exact outlook.blocked_receives.trans (hask hne)
          · exact hothers other hmem hne

theorem start (h : Produced c t) {id : ι} {ask : Ask ε}
    (hask : (id == c) = false → ask.receives = false) : Produced c (t.start id ask) := by
  refine h.of_parties (.of_eq (parties_start t id ask)) (fun party hparty hne => ?_) rfl
  rcases List.mem_append.mp hparty with hold | hnew
  · exact h.asks party hold hne
  · rw [List.mem_singleton.mp hnew] at hne ⊢
    exact hask hne

theorem step (h : Produced c t) {s : Step ι ε} (hs : s.produces c = true) :
    Produced c (t.step s) := by
  cases s with
  | start id ask =>
      simp only [Step.produces, Bool.and_eq_true, Bool.not_eq_true'] at hs
      exact h.start fun _ => hs.2
  | serve position => exact h.serveAt position
  | withdraw id =>
      refine h.of_parties (parties_withdraw t id) (fun party hparty hne => ?_) rfl
      obtain ⟨original, horiginal, rfl⟩ := List.mem_map.mp hparty
      split_ifs at hne ⊢ <;> exact h.asks original horiginal hne
  | close =>
      cases hclosed : t.stream.closed with
      | true => simpa only [Traffic.step, closeNow_of_closed hclosed] using h
      | false =>
          simp only [Traffic.step, closeNow_of_unclosed hclosed]
          exact h.of_parties (parties_wake _) h.asks rfl
  | sendFinal entry =>
      cases hclosed : t.stream.closed with
      | true => simpa only [Traffic.step, sendFinal_of_closed hclosed] using h
      | false =>
          simp only [Traffic.step, sendFinal_of_unclosed hclosed]
          exact h.of_parties (parties_wake _) h.asks rfl

end Produced

/-! ### The consumer is let alone -/

/-- What the consumer asks for and what it has is as before, and so is the end of the stream. -/
structure LetAlone (c : ι) (t t' : Traffic ι ε) : Prop where
  parties : (t'.parties.filter fun party => party.id == c).Perm
    (t.parties.filter fun party => party.id == c)
  told : t'.repliesTo c = t.repliesTo c
  taken : t'.taken = t.taken
  spent : t.stream.closed = true → t.stream.buffer = [] →
    t'.stream.closed = true ∧ t'.stream.buffer = []

/-- A producer looks. -/
theorem letAlone_serveAt {position : Nat} {party : Party ι ε}
    (hparty : t.ready[position]? = some party) (hid : (party.id == c) = false)
    (hask : party.ask.receives = false) : LetAlone c t (t.serveAt position) := by
  obtain ⟨others, hparties, hserved⟩ := serveAt_served hparty
  have hown : (others.filter fun party => party.id == c).Perm
      (t.parties.filter fun party => party.id == c) := by
    have hfiltered := hparties.filter fun party => party.id == c
    rw [List.filter_cons_of_neg (by simpa using hid)] at hfiltered
    exact hfiltered.symm
  have htold {reply : Reply ε}
      (hfinished : (t.serveAt position).finished = t.finished ++ [(party.id, reply)]) :
      (t.serveAt position).repliesTo c = t.repliesTo c := by
    rw [repliesTo_of_finished c hfinished, List.filter_cons_of_neg (by simpa using hid)]
    exact List.append_nil _
  cases hserved with
  | withdrawn _ those finished stream _ taken =>
      exact ⟨(those.filter _).trans hown, htold finished, taken, by rw [stream]; exact And.intro⟩
  | met _ outlook those finished stream _ taken =>
      rw [outlook.met_taken hask, List.append_nil] at taken
      refine ⟨(those.filter _).trans hown, htold finished, taken, fun hclosed hempty => ?_⟩
      rw [stream]
      exact outlook.met_of_closed_empty hclosed hempty
  | turnedDown _ _ those finished stream _ taken =>
      exact ⟨(those.filter _).trans hown, htold finished, taken, by rw [stream]; exact And.intro⟩
  | blocked _ outlook those finished stream _ taken =>
      obtain ⟨rfl, rfl⟩ := outlook.blocked_taken hask
      rw [List.append_nil] at taken
      have hfiltered := those.filter fun party => party.id == c
      rw [List.filter_cons_of_neg (by simpa using hid)] at hfiltered
      exact ⟨hfiltered.trans hown, by rw [repliesTo, finished, repliesTo], taken,
        by rw [stream]; exact And.intro⟩

/-- A producer does something else. -/
theorem letAlone_step [LawfulBEq ι] {s : Step ι ε} (hs : s.produces c = true)
    (hnoLook : ∀ position, s ≠ .serve position) : LetAlone c t (t.step s) := by
  obtain ⟨hfinished, htaken⟩ := step_still (t := t) hnoLook
  have htold : (t.step s).repliesTo c = t.repliesTo c := by
    rw [repliesTo, hfinished, repliesTo]
  refine ⟨?_, htold, htaken, ?_⟩
  · cases s with
    | start id ask =>
        simp only [Step.produces, Bool.and_eq_true, Bool.not_eq_true'] at hs
        rw [step, parties_start, List.filter_append,
          List.filter_cons_of_neg (by simpa using hs.1), List.filter_nil, List.append_nil]
    | serve position => exact absurd rfl (hnoLook position)
    | withdraw id =>
        exact filter_parties_withdraw_of_ne t (· == c) (by simpa [Step.produces] using hs)
    | close =>
        cases hclosed : t.stream.closed with
        | true => rw [step, closeNow_of_closed hclosed]
        | false =>
            rw [step, closeNow_of_unclosed hclosed]
            exact (parties_wake _).filter _
    | sendFinal entry =>
        cases hclosed : t.stream.closed with
        | true => rw [step, sendFinal_of_closed hclosed]
        | false =>
            rw [step, sendFinal_of_unclosed hclosed]
            exact (parties_wake _).filter _
  · intro hclosed hempty
    cases s with
    | serve position => exact absurd rfl (hnoLook position)
    | close =>
        rw [step, closeNow_of_closed hclosed]
        exact ⟨hclosed, hempty⟩
    | sendFinal entry =>
        rw [step, sendFinal_of_closed hclosed]
        exact ⟨hclosed, hempty⟩
    | _ => exact ⟨hclosed, hempty⟩

end Traffic

end Vigil.Stream
