import Vigil.Proofs.Stream.Rounds

/-!
# A withdrawn party leaves no trace

A party that waits to send or to receive one entry takes nothing and puts nothing on the stream, and
whenever it is woken in vain it goes back to the end of the line.  So the others do as they would
without it: leaving it out of a state and letting everybody look can be done in either order, for as
long as the party is not answered.
-/

namespace Vigil.Stream

variable {ι ε : Type}

/-- The step starts or withdraws the party. -/
def Step.concerns [BEq ι] (id : ι) : Step ι ε → Bool
  | .start other _ => other == id
  | .withdraw other => other == id
  | _ => false

/-- The same steps, as if the party had never come. -/
def forgetting [BEq ι] (id : ι) (steps : List (Step ι ε)) : List (Step ι ε) :=
  steps.filter fun s => !s.concerns id

namespace Outlook

variable {s stream : Stream ε} {ask : Ask ε} {reply : Reply ε} {accepted taken : List ε}

theorem met_ne_withdrawn (h : Outlook s ask (.met stream reply accepted taken)) :
    reply ≠ .withdrawn := by
  cases h <;> nofun

theorem turnedDown_ne_withdrawn (h : Outlook s ask (.turnedDown reply)) :
    reply ≠ .withdrawn := by
  cases h <;> nofun

end Outlook

namespace Traffic

/-! ### Leaving a party out -/

section Without

variable [BEq ι]

/-- The state as if the party had never come. -/
def without (t : Traffic ι ε) (id : ι) : Traffic ι ε :=
  { t with
    waiting := t.waiting.filter fun party => !(party.id == id)
    ready := t.ready.filter fun party => !(party.id == id)
    finished := t.finished.filter fun answer => !(answer.1 == id) }

variable {t : Traffic ι ε} {id : ι}

@[simp]
theorem without_stream (t : Traffic ι ε) (id : ι) : (t.without id).stream = t.stream := rfl

theorem without_onto (stream : Stream ε) (id : ι) :
    (onto stream : Traffic ι ε).without id = onto stream := rfl

theorem without_wake (t : Traffic ι ε) (id : ι) : t.wake.without id = (t.without id).wake := by
  simp [without, wake]

theorem without_finish_of_ne {other : ι} (hother : (other == id) = false) (reply : Reply ε) :
    (t.finish other reply).without id = (t.without id).finish other reply := by
  simp [without, finish, hother]

theorem without_finish_of_eq {other : ι} (hother : (other == id) = true) (reply : Reply ε) :
    (t.finish other reply).without id = t.without id := by
  simp [without, finish, hother]

theorem without_enqueue_of_ne {party : Party ι ε} (hparty : (party.id == id) = false) :
    (t.enqueue party).without id = (t.without id).enqueue party := by
  simp [without, enqueue, hparty]

theorem without_enqueue_of_eq {party : Party ι ε} (hparty : (party.id == id) = true) :
    (t.enqueue party).without id = t.without id := by
  simp [without, enqueue, hparty]

/-- The others look at the same stream, and find the same. -/
theorem without_serve_of_ne {party : Party ι ε} (hparty : (party.id == id) = false) :
    (t.serve party).without id = (t.without id).serve party := by
  rw [serve, serve, without_stream]
  split_ifs with hwithdrawn
  · exact without_finish_of_ne hparty _
  · cases look t.stream party.ask with
    | met stream reply accepted taken =>
        simp only
        rw [without_finish_of_ne hparty, without_wake]
        rfl
    | turnedDown reply => exact without_finish_of_ne hparty _
    | blocked stream ask taken =>
        have hparty' : (({ party with ask := ask } : Party ι ε).id == id) = false := hparty
        simp only
        rw [without_enqueue_of_ne hparty']
        split_ifs
        · rfl
        · rw [without_wake]
          rfl

theorem without_serveAt_of_ne {party : Party ι ε} {rest : List (Party ι ε)}
    (hready : t.ready = party :: rest) (hparty : (party.id == id) = false) :
    (t.serveAt 0).without id = (t.without id).serveAt 0 := by
  have hfirst : (t.without id).ready =
      party :: rest.filter fun party => !(party.id == id) := by
    simp [without, hready, hparty]
  simp only [serveAt, hready, hfirst, List.getElem?_cons_zero, List.eraseIdx_cons_zero]
  exact without_serve_of_ne (t := { t with ready := rest }) hparty

end Without

/-! ### Nobody notices -/

/-- The party was not answered, except by being withdrawn. -/
def Unanswered (t : Traffic ι ε) (id : ι) : Prop :=
  ∀ answer ∈ t.finished, answer.1 = id → answer.2 = .withdrawn

theorem Unanswered.of_prefix {t t' : Traffic ι ε} {id : ι} (h : t'.Unanswered id)
    (hgrown : t.finished <+: t'.finished) : t.Unanswered id :=
  fun answer hanswer => h answer (hgrown.subset hanswer)

/-- The party asks for one entry at a time, if it is on the stream. -/
def Modest (t : Traffic ι ε) (id : ι) : Prop :=
  ∀ party ∈ t.parties, party.id = id → party.ask.iterates = true

section Modest

variable {t t' : Traffic ι ε} {id : ι}

theorem Modest.of_parties {parties : List (Party ι ε)} (h : t.Modest id)
    (hparties : t'.parties.Perm parties)
    (hfrom : ∀ party ∈ parties, ∃ party' ∈ t.parties,
      party.id = party'.id ∧ party.ask = party'.ask) : t'.Modest id := by
  intro party hparty hid
  obtain ⟨party', hparty', hsame, hask⟩ := hfrom party (hparties.mem_iff.mp hparty)
  rw [hask]
  exact h party' hparty' (hsame.symm.trans hid)

theorem Modest.serveAt (h : t.Modest id) (position : Nat) : (t.serveAt position).Modest id := by
  cases hparty : t.ready[position]? with
  | none => rwa [serveAt_of_none hparty]
  | some party =>
      obtain ⟨others, hparties, hserved⟩ := serveAt_served hparty
      have hothers : ∀ other ∈ others, ∃ party' ∈ t.parties,
          other.id = party'.id ∧ other.ask = party'.ask := fun other hother =>
        ⟨other, hparties.mem_iff.mpr (List.mem_cons_of_mem _ hother), rfl, rfl⟩
      cases hserved with
      | withdrawn _ parties _ _ _ _ => exact h.of_parties parties hothers
      | met _ _ parties _ _ _ _ => exact h.of_parties parties hothers
      | turnedDown _ _ parties _ _ _ _ => exact h.of_parties parties hothers
      | blocked _ outlook parties _ _ _ _ =>
          intro other hother hid
          rcases List.mem_cons.mp (parties.mem_iff.mp hother) with rfl | hother
          · have hfirst := h party (hparties.mem_iff.mpr List.mem_cons_self) hid
            exact (outlook.blocked_iterates hfirst).2
          · exact h other (hparties.mem_iff.mpr (List.mem_cons_of_mem _ hother)) hid

variable [BEq ι]

theorem Modest.step (h : t.Modest id) (s : Step ι ε)
    (hstart : ∀ ask, s = .start id ask → ask.iterates = true) : (t.step s).Modest id := by
  cases s with
  | start other ask =>
      intro party hparty hid
      rw [Traffic.step, parties_start, List.mem_append, List.mem_singleton] at hparty
      rcases hparty with hparty | rfl
      · exact h party hparty hid
      · obtain rfl : other = id := hid
        exact hstart ask rfl
  | serve position => exact h.serveAt position
  | withdraw other =>
      apply h.of_parties (parties_withdraw t other)
      intro party hparty
      obtain ⟨original, horiginal, rfl⟩ := List.mem_map.mp hparty
      refine ⟨original, horiginal, ?_⟩
      split_ifs <;> exact ⟨rfl, rfl⟩
  | close =>
      cases hclosed : t.stream.closed with
      | true => simpa only [Traffic.step, closeNow_of_closed hclosed] using h
      | false =>
          simp only [Traffic.step, closeNow_of_unclosed hclosed]
          exact h.of_parties (parties_wake _) fun party hparty => ⟨party, hparty, rfl, rfl⟩
  | sendFinal entry =>
      cases hclosed : t.stream.closed with
      | true => simpa only [Traffic.step, sendFinal_of_closed hclosed] using h
      | false =>
          simp only [Traffic.step, sendFinal_of_unclosed hclosed]
          exact h.of_parties (parties_wake _) fun party hparty => ⟨party, hparty, rfl, rfl⟩

theorem Modest.round (h : t.Modest id) (s : Step ι ε)
    (hstart : ∀ ask, s = .start id ask → ask.iterates = true) : (t.round s).Modest id :=
  settle_keeps (motive := fun t' => t'.Modest id) (fun _ h => h.serveAt 0) (h.step s hstart)

end Modest

section Unnoticed

variable [BEq ι] [LawfulBEq ι] {t : Traffic ι ε} {id : ι}

/-- A look that leaves the party unanswered changes nothing for the others. -/
theorem without_serveAt_of_eq {party : Party ι ε} {rest : List (Party ι ε)}
    (hready : t.ready = party :: rest) (hparty : party.id = id) (hask : party.ask.iterates = true)
    (hquiet : (t.serveAt 0).Unanswered id) : (t.serveAt 0).without id = t.without id := by
  have hid : (party.id == id) = true := by simp [hparty]
  have hothers : ({ t with ready := rest } : Traffic ι ε).without id = t.without id := by
    simp [without, hready, hid]
  have hunmet {t' : Traffic ι ε} {reply : Reply ε} (hquiet : t'.Unanswered id)
      (hfinished : t'.finished = t.finished ++ [(party.id, reply)])
      (hreply : reply ≠ .withdrawn) : False := by
    apply hreply
    apply hquiet (party.id, reply) _ hparty
    simp [hfinished]
  have hturn := turn hready
  generalize t.serveAt 0 = t' at hturn hquiet ⊢
  cases hturn with
  | withdrawn left => rw [without_finish_of_eq hid, hothers]
  | met _ outlook => exact (hunmet hquiet rfl outlook.met_ne_withdrawn).elim
  | turnedDown _ outlook => exact (hunmet hquiet rfl outlook.turnedDown_ne_withdrawn).elim
  | heldUp _ _ => rw [without_enqueue_of_eq hid, hothers]
  | emptied _ outlook took => exact (took (outlook.blocked_iterates hask).1).elim

/-- Leaving out a party that is not answered and letting everybody look can be done in either
order. -/
theorem without_settle (hmodest : t.Modest id) (hquiet : t.settle.Unanswered id) :
    t.settle.without id = (t.without id).settle := by
  induction t using settle_induction with
  | settled t hready =>
      have hready' : (t.without id).ready = [] := by simp [without, hready]
      rw [settle_of_nil hready, settle_of_nil hready']
  | look t party rest hready ih =>
      rw [settle_of_cons hready] at hquiet ⊢
      rw [ih (hmodest.serveAt 0) hquiet]
      by_cases hparty : party.id = id
      · have hask : party.ask.iterates = true := by
          apply hmodest party _ hparty
          simp [parties, hready]
        have hnow := hquiet.of_prefix (finished_prefix_settle _)
        rw [without_serveAt_of_eq hready hparty hask hnow]
      · have hother : (party.id == id) = false := by simpa using hparty
        have hready' : (t.without id).ready =
            party :: rest.filter fun party => !(party.id == id) := by
          simp [without, hready, hother]
        rw [without_serveAt_of_ne hready hother, settle_of_cons hready']

/-- Nor does it matter to the steps of others whether it has come. -/
theorem without_step (hready : t.ready = []) (s : Step ι ε) :
    (t.step s).without id = if s.concerns id then t.without id else (t.without id).step s := by
  have hready' : (t.without id).ready = [] := by simp [without, hready]
  cases s with
  | start other ask =>
      cases hother : other == id <;> simp [Step.concerns, step, start, without, hready, hother]
  | serve position =>
      have hnobody : t.ready[position]? = none := by simp [hready]
      have hnobody' : (t.without id).ready[position]? = none := by simp [hready']
      simp only [Step.concerns, step, Bool.false_eq_true, if_false]
      rw [serveAt_of_none hnobody, serveAt_of_none hnobody']
  | withdraw other =>
      rw [step, step, withdraw_of_nil hready, withdraw_of_nil hready']
      by_cases hother : other = id
      · subst hother
        simp [Step.concerns, without, hready, List.filter_map, Function.comp_def]
      · rw [if_neg (by simpa [Step.concerns] using hother)]
        simp only [without, List.filter_filter, List.filter_map, Function.comp_def, Bool.and_comm]
  | close =>
      cases hclosed : t.stream.closed with
      | true =>
          have hclosed' : (t.without id).stream.closed = true := hclosed
          simp [Step.concerns, step, closeNow_of_closed hclosed, closeNow_of_closed hclosed']
      | false =>
          have hclosed' : (t.without id).stream.closed = false := hclosed
          simp only [Step.concerns, step, closeNow_of_unclosed hclosed,
            closeNow_of_unclosed hclosed', without_wake]
          rfl
  | sendFinal entry =>
      cases hclosed : t.stream.closed with
      | true =>
          have hclosed' : (t.without id).stream.closed = true := hclosed
          simp [Step.concerns, step, sendFinal_of_closed hclosed, sendFinal_of_closed hclosed']
      | false =>
          have hclosed' : (t.without id).stream.closed = false := hclosed
          simp only [Step.concerns, step, sendFinal_of_unclosed hclosed,
            sendFinal_of_unclosed hclosed', without_wake]
          rfl

theorem without_round (hready : t.ready = []) (hmodest : t.Modest id) (s : Step ι ε)
    (hstart : ∀ ask, s = .start id ask → ask.iterates = true)
    (hquiet : (t.round s).Unanswered id) :
    (t.round s).without id = if s.concerns id then t.without id else (t.without id).round s := by
  have hready' : (t.without id).ready = [] := by simp [without, hready]
  rw [round, without_settle (hmodest.step s hstart) hquiet, without_step hready]
  split_ifs
  · exact settle_of_nil hready'
  · rfl

/-- Through any number of rounds that leave the party unanswered the others do as they would without
it. -/
theorem without_rounds (steps : List (Step ι ε)) (hready : t.ready = [])
    (hmodest : t.Modest id) (hstart : ∀ ask, .start id ask ∈ steps → ask.iterates = true)
    (hquiet : (t.rounds steps).Unanswered id) :
    (t.rounds steps).without id = (t.without id).rounds (forgetting id steps) := by
  induction steps generalizing t with
  | nil => rfl
  | cons s steps ih =>
      have hfirst : ∀ ask, s = .start id ask → ask.iterates = true := fun ask hs =>
        hstart ask (hs ▸ List.mem_cons_self)
      have hround := without_round hready hmodest s hfirst
        (hquiet.of_prefix (finished_prefix_rounds _ steps))
      rw [rounds_cons, ih (ready_round t s) (hmodest.round s hfirst)
        (fun ask hask => hstart ask (List.mem_cons_of_mem _ hask)) hquiet, hround, forgetting,
        forgetting]
      cases hconcerns : s.concerns id <;> simp [hconcerns]

end Unnoticed

/-! ### Once it is withdrawn -/

/-- The party is not going to be answered, except by being withdrawn. -/
structure Leaving (t : Traffic ι ε) (id : ι) : Prop where
  unanswered : t.Unanswered id
  withdrawn : ∀ party ∈ t.parties, party.id = id → party.withdrawn = true

namespace Leaving

variable {t t' : Traffic ι ε} {id : ι}

theorem of_parties {parties : List (Party ι ε)} (h : t.Leaving id)
    (hfinished : t'.finished = t.finished) (hparties : t'.parties.Perm parties)
    (hmarked : ∀ party ∈ parties, party.id = id → party.withdrawn = true) : t'.Leaving id where
  unanswered := by rw [Unanswered, hfinished]; exact h.unanswered
  withdrawn party hparty := hmarked party (hparties.mem_iff.mp hparty)

theorem serveAt (h : t.Leaving id) (position : Nat) : (t.serveAt position).Leaving id := by
  cases hparty : t.ready[position]? with
  | none => rwa [serveAt_of_none hparty]
  | some party =>
      obtain ⟨others, hparties, hserved⟩ := serveAt_served hparty
      have hothers : ∀ other ∈ others, other.id = id → other.withdrawn = true :=
        fun other hother => h.withdrawn other (hparties.mem_iff.mpr (List.mem_cons_of_mem _ hother))
      have hanswered {reply : Reply ε} (hothers' : (t.serveAt position).parties.Perm others)
          (hfinished : (t.serveAt position).finished = t.finished ++ [(party.id, reply)])
          (hreply : party.id = id → reply = .withdrawn) : (t.serveAt position).Leaving id := by
        refine ⟨?_, fun other hother => hothers other (hothers'.mem_iff.mp hother)⟩
        intro answer hanswer hid
        rw [hfinished, List.mem_append, List.mem_singleton] at hanswer
        rcases hanswer with hanswer | rfl
        · exact h.unanswered answer hanswer hid
        · exact hreply hid
      -- a party that was not withdrawn is another one
      have hother (stayed : party.withdrawn = false) (hid : party.id = id) : False := by
        have hleft := h.withdrawn party (hparties.mem_iff.mpr List.mem_cons_self) hid
        exact Bool.false_ne_true (stayed.symm.trans hleft)
      cases hserved with
      | withdrawn _ parties finished _ _ _ => exact hanswered parties finished fun _ => rfl
      | met stayed _ parties finished _ _ _ =>
          exact hanswered parties finished fun hid => (hother stayed hid).elim
      | turnedDown stayed _ parties finished _ _ _ =>
          exact hanswered parties finished fun hid => (hother stayed hid).elim
      | blocked stayed _ parties finished _ _ _ =>
          apply h.of_parties finished parties
          intro party' hparty' hid
          rcases List.mem_cons.mp hparty' with rfl | hparty'
          · exact (hother stayed hid).elim
          · exact hothers party' hparty' hid

variable [BEq ι]

theorem step (h : t.Leaving id) (s : Step ι ε) (hstart : ∀ ask, s ≠ .start id ask) :
    (t.step s).Leaving id := by
  cases s with
  | start other ask =>
      refine h.of_parties rfl (.of_eq (parties_start t other ask)) ?_
      intro party hparty hid
      rcases List.mem_append.mp hparty with hparty | hparty
      · exact h.withdrawn party hparty hid
      · rw [List.mem_singleton.mp hparty] at hid
        obtain rfl : other = id := hid
        exact (hstart ask rfl).elim
  | serve position => exact h.serveAt position
  | withdraw other =>
      refine h.of_parties rfl (parties_withdraw t other) ?_
      intro party hparty
      obtain ⟨original, horiginal, rfl⟩ := List.mem_map.mp hparty
      split_ifs
      · exact fun _ => rfl
      · exact h.withdrawn original horiginal
  | close =>
      cases hclosed : t.stream.closed with
      | true => simpa only [Traffic.step, closeNow_of_closed hclosed] using h
      | false =>
          simp only [Traffic.step, closeNow_of_unclosed hclosed]
          exact h.of_parties rfl (parties_wake _) h.withdrawn
  | sendFinal entry =>
      cases hclosed : t.stream.closed with
      | true => simpa only [Traffic.step, sendFinal_of_closed hclosed] using h
      | false =>
          simp only [Traffic.step, sendFinal_of_unclosed hclosed]
          exact h.of_parties rfl (parties_wake _) h.withdrawn

theorem rounds (h : t.Leaving id) {steps : List (Step ι ε)}
    (hstart : ∀ ask, .start id ask ∉ steps) : (t.rounds steps).Leaving id := by
  apply rounds_keeps (motive := fun t' => t'.Leaving id) _ h
  intro t s hs h
  have hstep : (t.step s).Leaving id := h.step s fun ask hask => hstart ask (hask ▸ hs)
  exact settle_keeps (motive := fun t' => t'.Leaving id) (fun _ h => h.serveAt 0) hstep

end Leaving

/-! ### No trace -/

section NoTrace

variable [BEq ι] [LawfulBEq ι]

theorem exists_party_of_isPending {t : Traffic ι ε} {id : ι} (h : t.isPending id = true) :
    ∃ party ∈ t.parties, party.id = id := by
  rw [isPending, List.any_eq_true] at h
  obtain ⟨party, hparty, hid⟩ := h
  exact ⟨party, hparty, by simpa using hid⟩

/-- A party that is withdrawn while it waits was not answered and is not going to be. -/
theorem leaving_of_isPending {t : Traffic ι ε} {joined : List (Party ι ε)} {id : ι}
    (haccounted : t.Accounted joined) (hids : (joined.map Party.id).Nodup)
    (hpending : t.isPending id = true) : (t.round (.withdraw id)).Leaving id := by
  obtain ⟨party, hparty, rfl⟩ := exists_party_of_isPending hpending
  have hapart := List.nodup_append.mp (haccounted.nodup_iff.mpr hids)
  have hmarked : (t.withdraw party.id).Leaving party.id := by
    constructor
    · intro answer hanswer hid
      exact (hapart.2.2 _ (List.mem_map_of_mem hanswer) _ (List.mem_map_of_mem hparty) hid).elim
    · intro other hother
      obtain ⟨original, _, rfl⟩ :=
        List.mem_map.mp ((parties_withdraw t party.id).mem_iff.mp hother)
      split_ifs with hsame
      · exact fun _ => rfl
      · exact fun hid => (hsame (by simp [hid])).elim
  exact settle_keeps (motive := fun t' => t'.Leaving party.id) (fun _ h => h.serveAt 0) hmarked

/-- Where everybody has a name of their own, nobody takes that of a party that waits. -/
theorem not_mem_newcomers_of_isPending {t : Traffic ι ε} {joined : List (Party ι ε)} {id : ι}
    (haccounted : t.Accounted joined) (hpending : t.isPending id = true) {steps : List (Step ι ε)}
    (hids : ((joined ++ newcomers steps).map Party.id).Nodup) (ask : Ask ε) :
    .start id ask ∉ steps := by
  intro hstart
  obtain ⟨party, hparty, rfl⟩ := exists_party_of_isPending hpending
  have hjoined : party.id ∈ joined.map Party.id :=
    haccounted.mem_iff.mp (List.mem_append_right _ (List.mem_map_of_mem hparty))
  have hagain : party.id ∈ (newcomers steps).map Party.id :=
    List.mem_map.mpr ⟨_, mem_newcomers_of_start hstart, rfl⟩
  rw [List.map_append] at hids
  exact (List.nodup_append.mp hids).2.2 _ hjoined _ hagain rfl

/-- A party that asks for one entry at a time and is withdrawn while it waits leaves no trace: after
every round the stream, everybody else's answers and those who still wait are what they are in the
same history without it. -/
theorem without_eq_forgetting (stream : Stream ε) {before after : List (Step ι ε)} {id : ι}
    (hids : ((newcomers (before ++ .withdraw id :: after)).map Party.id).Nodup)
    (hplain : ∀ party ∈ newcomers before, party.id = id → party.ask.iterates = true)
    (hpending : ((onto stream).rounds before).isPending id = true) :
    ∀ earlier later, before ++ .withdraw id :: after = earlier ++ later →
      ((onto stream).rounds earlier).without id =
        (onto stream).rounds (forgetting id earlier) := by
  intro earlier later hsplit
  rw [newcomers_append] at hids
  have hbefore : ((newcomers before).map Party.id).Nodup := by
    rw [List.map_append] at hids
    exact (List.nodup_append.mp hids).1
  have haccounted := accounted_onto stream before
  have honce : ∀ ask, .start id ask ∉ .withdraw id :: after :=
    not_mem_newcomers_of_isPending haccounted hpending hids
  have hleaving := (leaving_of_isPending haccounted hbefore hpending).rounds fun ask hmem =>
    honce ask (List.mem_cons_of_mem _ hmem)
  have hquiet : ((onto stream).rounds earlier).Unanswered id := by
    apply hleaving.unanswered.of_prefix
    have hwhole : (((onto stream).rounds before).round (.withdraw id)).rounds after =
        ((onto stream).rounds earlier).rounds later := by
      rw [← rounds_append, ← hsplit, rounds_append, rounds_cons]
    rw [hwhole]
    exact finished_prefix_rounds _ later
  have hstart : ∀ ask, .start id ask ∈ earlier → ask.iterates = true := by
    intro ask hmem
    have hall : .start id ask ∈ before ++ .withdraw id :: after := by
      rw [hsplit]
      exact List.mem_append_left _ hmem
    rcases List.mem_append.mp hall with hmem | hmem
    · exact hplain _ (mem_newcomers_of_start hmem) rfl
    · exact (honce ask hmem).elim
  have hmodest : (onto stream : Traffic ι ε).Modest id :=
    fun party hparty => absurd hparty List.not_mem_nil
  rw [without_rounds earlier rfl hmodest hstart hquiet, without_onto]

/-- A sender behind a full buffer is woken in vain and goes back to the end of the line, before one
that comes later; then it is withdrawn. -/
theorem without_eq_forgetting_of_woken :
    ∃ before after : List (Step Nat Nat),
      ((newcomers (before ++ .withdraw 2 :: after)).map Party.id).Nodup ∧
      (∀ party ∈ newcomers before, party.id = 2 → party.ask.iterates = true) ∧
      ((onto ⟨1, [], false⟩ : Traffic Nat Nat).rounds before).isPending 2 = true ∧
      ((onto ⟨1, [], false⟩ : Traffic Nat Nat).rounds (before ++ .withdraw 2 :: after)).finished =
        [(0, .sent), (3, .received 10), (1, .sent), (2, .withdrawn), (5, .received 20),
          (4, .sent)] ∧
      ((onto ⟨1, [], false⟩ : Traffic Nat Nat).rounds
          (before ++ .withdraw 2 :: after)).without 2 =
        (onto ⟨1, [], false⟩).rounds (forgetting 2 (before ++ .withdraw 2 :: after)) := by
  let before : List (Step Nat Nat) := [.start 0 (.send 10), .start 1 (.send 20),
    .start 2 (.send 30), .start 3 .receive, .start 4 (.send 40)]
  let after : List (Step Nat Nat) := [.start 5 .receive]
  have hids : ((newcomers (before ++ .withdraw 2 :: after)).map Party.id).Nodup := by decide
  have hplain : ∀ party ∈ newcomers before, party.id = 2 → party.ask.iterates = true := by decide
  have hpending : ((onto ⟨1, [], false⟩ : Traffic Nat Nat).rounds before).isPending 2 = true := by
    cbv
  have htrace := without_eq_forgetting ⟨1, [], false⟩ hids hplain hpending _ []
    (List.append_nil _).symm
  exact ⟨before, after, hids, hplain, hpending, by cbv, htrace⟩

end NoTrace

end Traffic

end Vigil.Stream
