import Vigil.Proofs.Stream.Conservation

/-!
# What readers of a stream learn

Who reads a stream entry by entry gets what is taken off it, in order.  A reader that is told the
end can rely on it: the stream is closed and empty from then on.  And whoever asked is still on the
stream or was answered.
-/

namespace Vigil.Stream

variable {ι ε : Type}

/-- The reply says that the stream has ended. -/
def Reply.tellsEnd : Reply ε → Bool
  | .ended => true
  | .collected _ => true
  | .newest _ => true
  | _ => false

/-- The entry that a reply hands over, if it is one at a time. -/
def Reply.handed? : Reply ε → Option ε
  | .received entry => some entry
  | _ => none

/-- The request takes one entry off the stream, or none. -/
def Ask.iterates : Ask ε → Bool
  | .receive => true
  | .send _ => true
  | .close => true
  | _ => false

namespace Outlook

variable {s stream : Stream ε} {ask ask' : Ask ε} {reply : Reply ε} {accepted taken : List ε}

/-- Nobody puts anything on a closed stream, and on an empty one there is nothing to take. -/
theorem met_of_closed_empty (h : Outlook s ask (.met stream reply accepted taken))
    (hclosed : s.closed = true) (hempty : s.buffer = []) :
    stream.closed = true ∧ stream.buffer = [] := by
  cases h with
  | sent unclosed _ =>
      rw [hclosed] at unclosed
      cases unclosed
  | received buffer =>
      rw [hempty] at buffer
      cases buffer
  | collected _ => exact ⟨hclosed, rfl⟩
  | newest _ => exact ⟨hclosed, rfl⟩
  | shut unclosed =>
      rw [hclosed] at unclosed
      cases unclosed

theorem met_of_tellsEnd (h : Outlook s ask (.met stream reply accepted taken))
    (htells : reply.tellsEnd = true) : stream.closed = true ∧ stream.buffer = [] := by
  cases h with
  | sent _ _ => cases htells
  | received _ => cases htells
  | collected closed => exact ⟨closed, rfl⟩
  | newest closed => exact ⟨closed, rfl⟩
  | shut _ => cases htells

theorem turnedDown_of_tellsEnd (h : Outlook s ask (.turnedDown reply))
    (htells : reply.tellsEnd = true) : s.closed = true ∧ s.buffer = [] := by
  cases h with
  | sendDenied _ => cases htells
  | ended closed empty => exact ⟨closed, empty⟩
  | closeDenied _ => cases htells

/-- A request that takes one entry at a time hands over what it takes. -/
theorem met_handed? (h : Outlook s ask (.met stream reply accepted taken))
    (hask : ask.iterates = true) : reply.handed?.toList = taken := by
  cases h with
  | sent _ _ => rfl
  | received _ => rfl
  | collected _ => cases hask
  | newest _ => cases hask
  | shut _ => rfl

theorem turnedDown_handed? (h : Outlook s ask (.turnedDown reply)) : reply.handed? = none := by
  cases h <;> rfl

/-- While it is held up it takes nothing and stays what it is. -/
theorem blocked_iterates (h : Outlook s ask (.blocked stream ask' taken))
    (hask : ask.iterates = true) : taken = [] ∧ ask'.iterates = true := by
  cases h with
  | sendBlocked _ _ => exact ⟨rfl, rfl⟩
  | receiveBlocked _ _ => exact ⟨rfl, rfl⟩
  | collectBlocked _ => cases hask
  | lastBlocked _ => cases hask

end Outlook

namespace Traffic

/-! ### The end of a stream -/

/-- Somebody was told that the stream has ended. -/
def Told (t : Traffic ι ε) : Prop := ∃ entry ∈ t.finished, entry.2.tellsEnd = true

instance (t : Traffic ι ε) : Decidable t.Told :=
  inferInstanceAs (Decidable (∃ entry ∈ t.finished, entry.2.tellsEnd = true))

/-- Whoever was told the end was told the truth. -/
def Candid (t : Traffic ι ε) : Prop :=
  t.Told → t.stream.closed = true ∧ t.stream.buffer = []

section Candid

variable {t t' : Traffic ι ε}

theorem Told.of_finished {id : ι} {reply : Reply ε} (h : Told t')
    (hfinished : t'.finished = t.finished ++ [(id, reply)]) :
    Told t ∨ reply.tellsEnd = true := by
  obtain ⟨entry, hentry, htells⟩ := h
  rw [hfinished, List.mem_append, List.mem_singleton] at hentry
  rcases hentry with hentry | rfl
  · exact .inl ⟨entry, hentry, htells⟩
  · exact .inr htells

theorem Candid.serveAt (h : Candid t) (position : Nat) : Candid (t.serveAt position) := by
  cases hparty : t.ready[position]? with
  | none => rwa [serveAt_of_none hparty]
  | some party =>
      obtain ⟨others, _, hserved⟩ := serveAt_served hparty
      intro htold
      cases hserved with
      | withdrawn _ _ finished stream _ _ =>
          rw [stream]
          rcases htold.of_finished finished with hbefore | htells
          · exact h hbefore
          · cases htells
      | met _ outlook _ finished stream _ _ =>
          rw [stream]
          rcases htold.of_finished finished with hbefore | htells
          · exact outlook.met_of_closed_empty (h hbefore).1 (h hbefore).2
          · exact outlook.met_of_tellsEnd htells
      | turnedDown _ outlook _ finished stream _ _ =>
          rw [stream]
          rcases htold.of_finished finished with hbefore | htells
          · exact h hbefore
          · exact outlook.turnedDown_of_tellsEnd htells
      | blocked _ outlook _ finished _ _ _ =>
          rw [Told, finished] at htold
          have hunclosed := outlook.blocked_unclosed.1
          rw [(h htold).1] at hunclosed
          cases hunclosed

variable [BEq ι]

theorem Candid.step (h : Candid t) (s : Step ι ε) : Candid (t.step s) := by
  cases s with
  | start id ask => exact h
  | serve position => exact h.serveAt position
  | withdraw id => exact h
  | close =>
      cases hclosed : t.stream.closed with
      | true => simpa only [Traffic.step, closeNow_of_closed hclosed] using h
      | false =>
          simp only [Traffic.step, closeNow_of_unclosed hclosed]
          intro htold
          exact ⟨rfl, (h htold).2⟩
  | sendFinal entry =>
      cases hclosed : t.stream.closed with
      | true => simpa only [Traffic.step, sendFinal_of_closed hclosed] using h
      | false =>
          simp only [Traffic.step, sendFinal_of_unclosed hclosed]
          intro htold
          have hbefore := (h htold).1
          rw [hclosed] at hbefore
          cases hbefore

end Candid

/-! ### Entry by entry -/

/-- The entries that were handed over one at a time, in order. -/
def received (t : Traffic ι ε) : List ε := t.finished.filterMap fun entry => entry.2.handed?

/-- Everything that is taken off the stream is handed over at once. -/
structure Iterated (t : Traffic ι ε) : Prop where
  iterates : ∀ party ∈ t.parties, party.ask.iterates = true
  received : t.received = t.taken

section Iterated

variable {t t' : Traffic ι ε}

theorem received_of_finished {id : ι} {reply : Reply ε}
    (hfinished : t'.finished = t.finished ++ [(id, reply)]) :
    t'.received = t.received ++ reply.handed?.toList := by
  rw [received, hfinished, List.filterMap_append, received]
  cases hentry : reply.handed? <;> simp [hentry]

theorem Iterated.serveAt (h : Iterated t) (position : Nat) : Iterated (t.serveAt position) := by
  cases hparty : t.ready[position]? with
  | none => rwa [serveAt_of_none hparty]
  | some party =>
      obtain ⟨others, hparties, hserved⟩ := serveAt_served hparty
      have hask : party.ask.iterates = true :=
        h.iterates party (hparties.mem_iff.mpr List.mem_cons_self)
      have hothers {t₁ : Traffic ι ε} (hperm : t₁.parties.Perm others) :
          ∀ other ∈ t₁.parties, other.ask.iterates = true := fun other hother =>
        h.iterates other (hparties.mem_iff.mpr (List.mem_cons_of_mem _ (hperm.mem_iff.mp hother)))
      cases hserved with
      | withdrawn _ parties finished _ _ taken =>
          refine ⟨hothers parties, ?_⟩
          rw [received_of_finished finished, taken, ← h.received]
          exact List.append_nil _
      | met _ outlook parties finished _ _ taken =>
          refine ⟨hothers parties, ?_⟩
          rw [received_of_finished finished, taken, h.received, outlook.met_handed? hask]
      | turnedDown _ outlook parties finished _ _ taken =>
          refine ⟨hothers parties, ?_⟩
          rw [received_of_finished finished, taken, ← h.received, outlook.turnedDown_handed?]
          exact List.append_nil _
      | blocked _ outlook parties finished _ _ taken =>
          obtain ⟨rfl, hask'⟩ := outlook.blocked_iterates hask
          refine ⟨?_, ?_⟩
          · intro other hother
            rcases List.mem_cons.mp (parties.mem_iff.mp hother) with rfl | hother
            · exact hask'
            · exact h.iterates other (hparties.mem_iff.mpr (List.mem_cons_of_mem _ hother))
          · rw [Traffic.received, finished, taken, List.append_nil]
            exact h.received

theorem Iterated.of_parties {parties : List (Party ι ε)} (h : Iterated t)
    (hparties : t'.parties.Perm parties)
    (hiterates : ∀ party ∈ parties, party.ask.iterates = true)
    (hfinished : t'.finished = t.finished) (htaken : t'.taken = t.taken) : Iterated t' where
  iterates party hparty := hiterates party (hparties.mem_iff.mp hparty)
  received := by
    rw [Traffic.received, hfinished, htaken]
    exact h.received

variable [BEq ι]

theorem Iterated.step (h : Iterated t) (s : Step ι ε)
    (hstart : ∀ id ask, s = .start id ask → ask.iterates = true) : Iterated (t.step s) := by
  cases s with
  | start id ask =>
      refine h.of_parties (.of_eq (parties_start t id ask)) ?_ rfl rfl
      intro party hparty
      rcases List.mem_append.mp hparty with hparty | hparty
      · exact h.iterates party hparty
      · rw [List.mem_singleton.mp hparty]
        exact hstart id ask rfl
  | serve position => exact h.serveAt position
  | withdraw id =>
      refine h.of_parties (parties_withdraw t id) ?_ rfl rfl
      intro party hparty
      obtain ⟨original, horiginal, rfl⟩ := List.mem_map.mp hparty
      split_ifs <;> exact h.iterates original horiginal
  | close =>
      cases hclosed : t.stream.closed with
      | true => simpa only [Traffic.step, closeNow_of_closed hclosed] using h
      | false =>
          simp only [Traffic.step, closeNow_of_unclosed hclosed]
          exact h.of_parties (parties_wake _) h.iterates rfl rfl
  | sendFinal entry =>
      cases hclosed : t.stream.closed with
      | true => simpa only [Traffic.step, sendFinal_of_closed hclosed] using h
      | false =>
          simp only [Traffic.step, sendFinal_of_unclosed hclosed]
          exact h.of_parties (parties_wake _) h.iterates rfl rfl

end Iterated

/-! ### Every request -/

/-- Somebody has asked, and is still on the stream or was answered. -/
def Asked [BEq ι] (t : Traffic ι ε) (id : ι) : Prop :=
  (∃ party ∈ t.parties, party.id = id) ∨ (t.replyTo? id).isSome = true

section Asked

variable [BEq ι] [LawfulBEq ι] {t t' : Traffic ι ε} {id : ι}

omit [LawfulBEq ι] in
theorem isSome_replyTo?_of_finished {answers : List (ι × Reply ε)}
    (hfinished : t'.finished = t.finished ++ answers) (h : (t.replyTo? id).isSome = true) :
    (t'.replyTo? id).isSome = true := by
  simp only [replyTo?, Option.isSome_map, List.find?_isSome] at h ⊢
  obtain ⟨entry, hentry, hid⟩ := h
  exact ⟨entry, by rw [hfinished]; exact List.mem_append_left _ hentry, hid⟩

theorem isSome_replyTo?_of_answered {reply : Reply ε}
    (hfinished : t'.finished = t.finished ++ [(id, reply)]) : (t'.replyTo? id).isSome = true := by
  simp only [replyTo?, Option.isSome_map, List.find?_isSome]
  exact ⟨(id, reply), by simp [hfinished], beq_self_eq_true id⟩

omit [LawfulBEq ι] in
theorem Asked.of_parties (h : Asked t id)
    (hparties : ∀ party ∈ t.parties, ∃ party' ∈ t'.parties, party'.id = party.id)
    (hfinished : t'.finished = t.finished) : Asked t' id := by
  rcases h with ⟨party, hparty, rfl⟩ | hreply
  · exact .inl (hparties party hparty)
  · exact .inr (isSome_replyTo?_of_finished (hfinished.trans (List.append_nil _).symm) hreply)

theorem Asked.serveAt (h : Asked t id) (position : Nat) : Asked (t.serveAt position) id := by
  cases hparty : t.ready[position]? with
  | none => rwa [serveAt_of_none hparty]
  | some party =>
      obtain ⟨others, hparties, hserved⟩ := serveAt_served hparty
      -- the party that looked was answered or waits; the others stay
      have hanswered {reply : Reply ε} (hothers : (t.serveAt position).parties.Perm others)
          (hfinished : (t.serveAt position).finished = t.finished ++ [(party.id, reply)]) :
          Asked (t.serveAt position) id := by
        rcases h with ⟨other, hother, rfl⟩ | hreply
        · rcases List.mem_cons.mp (hparties.mem_iff.mp hother) with rfl | hother
          · exact .inr (isSome_replyTo?_of_answered hfinished)
          · exact .inl ⟨other, hothers.mem_iff.mpr hother, rfl⟩
        · exact .inr (isSome_replyTo?_of_finished hfinished hreply)
      cases hserved with
      | withdrawn _ hothers finished _ _ _ => exact hanswered hothers finished
      | met _ _ hothers finished _ _ _ => exact hanswered hothers finished
      | turnedDown _ _ hothers finished _ _ _ => exact hanswered hothers finished
      | @blocked _ ask _ _ _ hothers finished _ _ _ =>
          rcases h with ⟨other, hother, rfl⟩ | hreply
          · rcases List.mem_cons.mp (hparties.mem_iff.mp hother) with rfl | hother
            · exact .inl ⟨_, hothers.mem_iff.mpr List.mem_cons_self, rfl⟩
            · exact .inl ⟨other, hothers.mem_iff.mpr (List.mem_cons_of_mem _ hother), rfl⟩
          · exact .inr
              (isSome_replyTo?_of_finished (finished.trans (List.append_nil _).symm) hreply)

theorem Asked.step (h : Asked t id) (s : Step ι ε) : Asked (t.step s) id := by
  cases s with
  | start id' ask =>
      refine h.of_parties (fun party hparty => ⟨party, ?_, rfl⟩) rfl
      simp only [Traffic.step, parties_start]
      exact List.mem_append_left _ hparty
  | serve position => exact h.serveAt position
  | withdraw id' =>
      refine h.of_parties (fun party hparty => ?_) rfl
      refine ⟨_, (parties_withdraw t id').mem_iff.mpr (List.mem_map_of_mem hparty), ?_⟩
      split_ifs <;> rfl
  | close =>
      cases hclosed : t.stream.closed with
      | true => simpa only [Traffic.step, closeNow_of_closed hclosed] using h
      | false =>
          simp only [Traffic.step, closeNow_of_unclosed hclosed]
          exact h.of_parties
            (fun party hparty => ⟨party, (parties_wake _).mem_iff.mpr hparty, rfl⟩) rfl
  | sendFinal entry =>
      cases hclosed : t.stream.closed with
      | true => simpa only [Traffic.step, sendFinal_of_closed hclosed] using h
      | false =>
          simp only [Traffic.step, sendFinal_of_unclosed hclosed]
          exact h.of_parties
            (fun party hparty => ⟨party, (parties_wake _).mem_iff.mpr hparty, rfl⟩) rfl

end Asked

end Traffic

end Vigil.Stream
