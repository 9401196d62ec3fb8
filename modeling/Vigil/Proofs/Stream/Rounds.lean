import Vigil.Proofs.Stream.Readers
import Vigil.Proofs.Stream.Shutdown

/-!
# Rounds

Whoever uses a stream step by step sees it only when everybody has looked.  A round is one step and
then all looks that it gives rise to, in order.  How a round goes is told look by look: what a look
does to the line is listed exactly here, since the order of the others is at stake, and whatever a
look keeps is kept by a whole round.
-/

namespace Vigil.Stream

variable {ι ε : Type}

theorem newcomers_append (earlier later : List (Step ι ε)) :
    newcomers (earlier ++ later) = newcomers earlier ++ newcomers later :=
  List.flatMap_append

theorem mem_newcomers_of_start {steps : List (Step ι ε)} {id : ι} {ask : Ask ε}
    (h : .start id ask ∈ steps) : ⟨id, ask, false⟩ ∈ newcomers steps :=
  List.mem_flatMap.mpr ⟨_, h, List.mem_singleton_self _⟩

/-- A party that has to wait without having taken anything still asks for the same. -/
theorem Outlook.blocked_ask {s stream : Stream ε} {ask ask' : Ask ε} {taken : List ε}
    (h : Outlook s ask (.blocked stream ask' taken)) (htaken : taken = []) : ask' = ask := by
  cases h with
  | sendBlocked _ _ => rfl
  | receiveBlocked _ _ => rfl
  | collectBlocked _ => rw [htaken, List.append_nil]
  | lastBlocked _ => rw [htaken]; rfl

namespace Traffic

/-! ### One look after the other -/

section Settle

variable {t : Traffic ι ε} {party : Party ι ε} {rest : List (Party ι ε)}

theorem settle_of_nil (hready : t.ready = []) : t.settle = t := by
  rw [settle]
  split
  · rfl
  · rename_i h
    rw [hready] at h
    cases h

/-- Everybody looks in order: the first does so, and then the others. -/
theorem settle_of_cons (hready : t.ready = party :: rest) :
    t.settle = (t.serveAt 0).settle := by
  rw [settle]
  split
  · rename_i h
    rw [hready] at h
    cases h
  · rename_i first others h
    rw [hready] at h
    cases h
    simp [serveAt, hready]

/-- To prove something of a state it is enough to prove it when nobody is to look, and to lead it
back to the state after the next look. -/
theorem settle_induction {motive : Traffic ι ε → Prop}
    (settled : ∀ t, t.ready = [] → motive t)
    (look : ∀ t party rest, t.ready = party :: rest → motive (t.serveAt 0) → motive t)
    (t : Traffic ι ε) : motive t := by
  induction t using settle.induct with
  | case1 t hready => exact settled t hready
  | case2 t party rest hready ih =>
      apply look t party rest hready
      simpa [serveAt, hready] using ih

/-- What every look keeps is so when everybody has looked. -/
theorem settle_keeps {motive : Traffic ι ε → Prop} (look : ∀ t, motive t → motive (t.serveAt 0))
    {t : Traffic ι ε} (h : motive t) : motive t.settle := by
  induction t using settle_induction with
  | settled t hready => rwa [settle_of_nil hready]
  | look t party rest hready ih =>
      rw [settle_of_cons hready]
      exact ih (look t h)

@[simp]
theorem ready_settle (t : Traffic ι ε) : t.settle.ready = [] := by
  induction t using settle_induction with
  | settled t hready => rw [settle_of_nil hready, hready]
  | look t party rest hready ih => rw [settle_of_cons hready, ih]

theorem finished_prefix_settle [BEq ι] (t : Traffic ι ε) : t.finished <+: t.settle.finished :=
  settle_keeps (motive := fun t' => t.finished <+: t'.finished)
    (fun t' h => h.trans (finished_prefix_step t' (.serve 0))) List.prefix_rfl

end Settle

/-! ### The line -/

/-- What the look of the first party does, with the others in the order in which they are left. -/
inductive Turn (t : Traffic ι ε) (party : Party ι ε) (rest : List (Party ι ε)) :
    Traffic ι ε → Prop
  | withdrawn (left : party.withdrawn = true) :
      Turn t party rest ({ t with ready := rest }.finish party.id .withdrawn)
  | met {stream : Stream ε} {reply : Reply ε} {new gone : List ε}
      (stayed : party.withdrawn = false)
      (outlook : Outlook t.stream party.ask (.met stream reply new gone)) :
      Turn t party rest
        { stream := stream, waiting := [], ready := rest ++ t.waiting,
          finished := t.finished ++ [(party.id, reply)], accepted := t.accepted ++ new,
          taken := t.taken ++ gone }
  | turnedDown {reply : Reply ε} (stayed : party.withdrawn = false)
      (outlook : Outlook t.stream party.ask (.turnedDown reply)) :
      Turn t party rest ({ t with ready := rest }.finish party.id reply)
  | heldUp (stayed : party.withdrawn = false)
      (outlook : Outlook t.stream party.ask (.blocked t.stream party.ask [])) :
      Turn t party rest ({ t with ready := rest }.enqueue party)
  | emptied {stream : Stream ε} {ask : Ask ε} {gone : List ε} (stayed : party.withdrawn = false)
      (outlook : Outlook t.stream party.ask (.blocked stream ask gone)) (took : gone ≠ []) :
      Turn t party rest
        { stream := stream, waiting := [{ party with ask := ask }], ready := rest ++ t.waiting,
          finished := t.finished, accepted := t.accepted, taken := t.taken ++ gone }

theorem turn {t : Traffic ι ε} {party : Party ι ε} {rest : List (Party ι ε)}
    (hready : t.ready = party :: rest) : Turn t party rest (t.serveAt 0) := by
  have houtlook := outlook t.stream party.ask
  simp only [serveAt, hready, List.getElem?_cons_zero, List.eraseIdx_cons_zero, serve]
  split_ifs with hwithdrawn
  · exact .withdrawn hwithdrawn
  · have hstayed : party.withdrawn = false := by simpa using hwithdrawn
    split
    · rename_i stream reply new gone hlook
      rw [hlook] at houtlook
      exact .met hstayed houtlook
    · rename_i reply hlook
      rw [hlook] at houtlook
      exact .turnedDown hstayed houtlook
    · rename_i stream ask gone hlook
      rw [hlook] at houtlook
      rcases look_blocked hlook with ⟨rfl, rfl⟩ | ⟨htook, _⟩
      · obtain rfl : ask = party.ask := houtlook.blocked_ask rfl
        have hturn : Turn t party rest _ := .heldUp hstayed houtlook
        simpa [enqueue] using hturn
      · simpa [htook, enqueue, wake] using Turn.emptied hstayed houtlook htook

/-! ### Rounds -/

section Rounds

variable [BEq ι] {t : Traffic ι ε}

/-- A step, after which everybody who is to look does so. -/
def round (t : Traffic ι ε) (s : Step ι ε) : Traffic ι ε := (t.step s).settle

/-- The state after some rounds. -/
def rounds (t : Traffic ι ε) (steps : List (Step ι ε)) : Traffic ι ε := steps.foldl round t

@[simp]
theorem rounds_nil (t : Traffic ι ε) : t.rounds [] = t := rfl

@[simp]
theorem rounds_cons (t : Traffic ι ε) (s : Step ι ε) (steps : List (Step ι ε)) :
    t.rounds (s :: steps) = (t.round s).rounds steps := rfl

@[simp]
theorem rounds_append (t : Traffic ι ε) (earlier later : List (Step ι ε)) :
    t.rounds (earlier ++ later) = (t.rounds earlier).rounds later :=
  List.foldl_append

@[simp]
theorem ready_round (t : Traffic ι ε) (s : Step ι ε) : (t.round s).ready = [] :=
  ready_settle _

/-- What every round keeps is so after some rounds. -/
theorem rounds_keeps {motive : Traffic ι ε → Prop} {steps : List (Step ι ε)}
    (round : ∀ t, ∀ s ∈ steps, motive t → motive (t.round s)) {t : Traffic ι ε} (h : motive t) :
    motive (t.rounds steps) := by
  induction steps generalizing t with
  | nil => exact h
  | cons s steps ih =>
      apply ih
      · exact fun t s' hs' => round t s' (List.mem_cons_of_mem _ hs')
      · exact round t s List.mem_cons_self h

/-- Once everybody has looked, who is withdrawn leaves the line and is the only one to look. -/
theorem withdraw_of_nil (hready : t.ready = []) (id : ι) :
    t.withdraw id =
      { t with
        waiting := t.waiting.filter fun party => !(party.id == id)
        ready := (t.waiting.filter fun party => party.id == id).map fun party =>
          { party with withdrawn := true } } := by
  simp only [withdraw, hready, List.partition_eq_filter_filter, List.nil_append]
  congr 1
  apply List.map_congr_left
  intro party hparty
  rw [if_pos (by simpa using (List.mem_filter.mp hparty).2)]

theorem finished_prefix_round (t : Traffic ι ε) (s : Step ι ε) :
    t.finished <+: (t.round s).finished :=
  (finished_prefix_step t s).trans (finished_prefix_settle _)

theorem finished_prefix_rounds (t : Traffic ι ε) (steps : List (Step ι ε)) :
    t.finished <+: (t.rounds steps).finished :=
  rounds_keeps (motive := fun t' => t.finished <+: t'.finished)
    (fun t' s _ h => h.trans (finished_prefix_round t' s)) List.prefix_rfl

end Rounds

/-! ### Everybody is accounted for -/

/-- Everybody who came was answered or is still on the stream. -/
def Accounted (t : Traffic ι ε) (joined : List (Party ι ε)) : Prop :=
  (t.finished.map Prod.fst ++ t.parties.map Party.id).Perm (joined.map Party.id)

namespace Accounted

variable {t : Traffic ι ε} {joined : List (Party ι ε)}

theorem serveAt (h : t.Accounted joined) (position : Nat) :
    (t.serveAt position).Accounted joined := by
  cases hparty : t.ready[position]? with
  | none => rwa [serveAt_of_none hparty]
  | some party =>
      obtain ⟨others, hparties, hserved⟩ := serveAt_served hparty
      have hids : (t.parties.map Party.id).Perm (party.id :: others.map Party.id) :=
        hparties.map Party.id
      have hbefore : (t.finished.map Prod.fst ++ party.id :: others.map Party.id).Perm
          (joined.map Party.id) := (hids.symm.append_left _).trans h
      have hanswered {t' : Traffic ι ε} {reply : Reply ε} (hothers : t'.parties.Perm others)
          (hfinished : t'.finished = t.finished ++ [(party.id, reply)]) : t'.Accounted joined := by
        refine List.Perm.trans ?_ hbefore
        rw [hfinished, List.map_append, List.append_assoc]
        exact ((hothers.map Party.id).cons party.id).append_left _
      cases hserved with
      | withdrawn _ parties finished _ _ _ => exact hanswered parties finished
      | met _ _ parties finished _ _ _ => exact hanswered parties finished
      | turnedDown _ _ parties finished _ _ _ => exact hanswered parties finished
      | blocked _ _ parties finished _ _ _ =>
          refine List.Perm.trans ?_ hbefore
          rw [finished]
          exact (parties.map Party.id).append_left _

theorem of_parties {t' : Traffic ι ε} (h : t.Accounted joined)
    (hfinished : t'.finished = t.finished)
    (hparties : (t'.parties.map Party.id).Perm (t.parties.map Party.id)) :
    t'.Accounted joined := by
  rw [Accounted, hfinished]
  exact (hparties.append_left _).trans h

variable [BEq ι]

theorem step (h : t.Accounted joined) (s : Step ι ε) :
    (t.step s).Accounted (joined ++ s.comes) := by
  cases s with
  | start id ask =>
      simp only [Traffic.step, Step.comes, Accounted, parties_start, List.map_append,
        ← List.append_assoc]
      exact List.Perm.append_right _ h
  | serve position =>
      simp only [Step.comes, List.append_nil]
      exact h.serveAt position
  | withdraw id =>
      simp only [Step.comes, List.append_nil]
      refine h.of_parties (withdraw_finished t id) ?_
      refine ((parties_withdraw t id).map Party.id).trans (.of_eq ?_)
      rw [List.map_map]
      apply List.map_congr_left
      intro party _
      simp only [Function.comp]
      split_ifs <;> rfl
  | close =>
      simp only [Step.comes, List.append_nil]
      cases hclosed : t.stream.closed with
      | true => simpa only [Traffic.step, closeNow_of_closed hclosed] using h
      | false =>
          simp only [Traffic.step, closeNow_of_unclosed hclosed]
          exact h.of_parties rfl ((parties_wake _).map Party.id)
  | sendFinal entry =>
      simp only [Step.comes, List.append_nil]
      cases hclosed : t.stream.closed with
      | true => simpa only [Traffic.step, sendFinal_of_closed hclosed] using h
      | false =>
          simp only [Traffic.step, sendFinal_of_unclosed hclosed]
          exact h.of_parties rfl ((parties_wake _).map Party.id)

theorem round (h : t.Accounted joined) (s : Step ι ε) :
    (t.round s).Accounted (joined ++ s.comes) :=
  settle_keeps (motive := fun t' => t'.Accounted (joined ++ s.comes))
    (fun _ h => h.serveAt 0) (h.step s)

theorem rounds (h : t.Accounted joined) (steps : List (Step ι ε)) :
    (t.rounds steps).Accounted (joined ++ newcomers steps) := by
  induction steps generalizing t joined with
  | nil => simpa [newcomers] using h
  | cons s steps ih =>
      have hlater := ih (h.round s)
      rwa [List.append_assoc] at hlater

end Accounted

theorem accounted_onto [BEq ι] (stream : Stream ε) (steps : List (Step ι ε)) :
    ((onto stream).rounds steps).Accounted (newcomers steps) :=
  have hnobody : (onto stream : Traffic ι ε).Accounted [] := List.Perm.refl []
  hnobody.rounds steps

end Traffic

end Vigil.Stream
