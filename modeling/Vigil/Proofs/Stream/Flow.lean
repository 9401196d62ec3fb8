import Vigil.Proofs.Stream.Consumers

/-!
# It does not matter when entries are taken

While a consumer pauses, senders that were woken may find the stream full again and go back to the
end of the line.  They keep their order, and so everybody fares in the end as if each entry had been
taken as soon as it was there: what comes of that is the same before and after every look, whoever
looks.
-/

namespace Vigil.Stream

variable {ι ε : Type}

namespace HoldsUp

variable {s : Stream ε} {ask ask' : Ask ε}

/-- Nobody waits to close a stream. -/
theorem sends (h : s.HoldsUp ask) (hask : ask.receives = false) : ask.sends = true := by
  cases ask with
  | send entry => rfl
  | close => exact h.elim
  | _ => cases hask

/-- Where a receiver has to wait, no sender has to. -/
theorem receives (hcapacity : 1 ≤ s.capacity) (h : s.HoldsUp ask) (hask : ask.receives = true)
    (h' : s.HoldsUp ask') : ask'.receives = true := by
  by_contra hother
  have hfull := h'.full (h'.sends (by simpa using hother))
  rw [h.empty hask] at hfull
  exact absurd (hcapacity.trans hfull) (by simp)

end HoldsUp

namespace Traffic

/-! ### As if everything were taken at once -/

/-- Everything is taken off the stream. -/
def skim (t : Traffic ι ε) : Traffic ι ε :=
  { t with stream := { t.stream with buffer := [] }, taken := t.taken ++ t.stream.buffer }

/-- The emptied stream without those who are on it. -/
def bare (t : Traffic ι ε) : Traffic ι ε := { t.skim with waiting := [], ready := [] }

/-- Everybody looks once, in the order of the line, and finds the stream empty. -/
def absorb (t : Traffic ι ε) : Traffic ι ε :=
  t.parties.foldl (fun v party => (v.serve party).skim) t.bare

section Absorb

variable {t t' : Traffic ι ε} {party : Party ι ε} {rest : List (Party ι ε)}

theorem absorb_congr (hparties : t'.parties = t.parties) (hbare : t'.bare = t.bare) :
    t'.absorb = t.absorb := by
  rw [absorb, hparties, hbare, absorb]

theorem absorb_of_nil (hparties : t.parties = []) (hempty : t.stream.buffer = []) :
    t.absorb = t := by
  obtain ⟨⟨capacity, buffer, closed⟩, waiting, ready, finished, accepted, taken⟩ := t
  obtain ⟨hwaiting, hready⟩ := List.append_eq_nil_iff.mp hparties
  cases hempty
  cases hwaiting
  cases hready
  simp [absorb, parties, bare, skim]

/-- Nobody waits before a party that is answered, and it gets the answer that it gets at an empty
stream. -/
theorem absorb_of_answered (hready : t.ready = party :: rest) (hwaiting : t.waiting = [])
    (hparties : t'.parties = rest) (hbare : (t.bare.serve party).skim = t'.bare) :
    t'.absorb = t.absorb := by
  rw [absorb, absorb, hparties, ← hbare, parties, hwaiting, hready]
  rfl

theorem skim_serve_of_withdrawn (hleft : party.withdrawn = true) :
    (t.bare.serve party).skim = (t.finish party.id .withdrawn).bare := by
  simp [serve, hleft, bare, skim, finish]

theorem skim_serve_of_turnedDown (hstayed : party.withdrawn = false)
    (hask : party.ask.receives = false) {reply : Reply ε}
    (houtlook : Outlook t.stream party.ask (.turnedDown reply)) :
    (t.bare.serve party).skim = (t.finish party.id reply).bare := by
  have hclosed := houtlook.turnedDown_closed
  obtain ⟨id, ask, withdrawn⟩ := party
  cases hstayed
  cases houtlook with
  | sendDenied _ => simp [serve, look, hclosed, bare, skim, finish]
  | closeDenied _ => simp [serve, look, hclosed, bare, skim, finish]
  | ended _ _ => cases hask

theorem skim_serve_of_met (hcapacity : 1 ≤ t.stream.capacity) (hstayed : party.withdrawn = false)
    (hask : party.ask.receives = false) {stream : Stream ε} {reply : Reply ε} {new gone : List ε}
    (houtlook : Outlook t.stream party.ask (.met stream reply new gone)) :
    (t.bare.serve party).skim =
      (⟨stream, [], rest, t.finished ++ [(party.id, reply)], t.accepted ++ new,
        t.taken ++ gone⟩ : Traffic ι ε).bare := by
  have hroom : 0 < t.stream.capacity := hcapacity
  obtain ⟨id, ask, withdrawn⟩ := party
  cases hstayed
  cases houtlook with
  | sent unclosed _ =>
      simp [serve, look, unclosed, bare, skim, finish, wake, hasRoom, push, hroom]
  | shut unclosed => simp [serve, look, unclosed, bare, skim, finish, wake]
  | received _ => cases hask
  | collected _ => cases hask
  | newest _ => cases hask

/-- Only producers are on the stream, and whoever waits has to.  Either all of them are senders that
stay, or there is only one. -/
structure Tame (t : Traffic ι ε) : Prop where
  capacity : 1 ≤ t.stream.capacity
  watchful : Watchful t
  asks : ∀ party ∈ t.parties, party.ask.receives = false
  even : (∀ party ∈ t.parties, party.ask.sends = true ∧ party.withdrawn = false) ∨
    ∃ party, t.parties = [party]

namespace Tame

/-- Where there is room, no producer waits. -/
theorem eq_nil_of_room (h : Tame t) (hroom : t.stream.buffer.length < t.stream.capacity) :
    t.waiting = [] := by
  rw [List.eq_nil_iff_forall_not_mem]
  intro party hparty
  have hheld : t.stream.HoldsUp party.ask := h.watchful party hparty
  have hask := h.asks party (List.mem_append_left _ hparty)
  exact absurd hroom (Nat.not_lt.mpr (hheld.full (hheld.sends hask)))

/-- Where there is only one, it does not wait while it is to look. -/
theorem eq_nil_of_single (hready : t.ready = party :: rest) (h : ∃ party, t.parties = [party]) :
    t.waiting = [] := by
  obtain ⟨single, hsingle⟩ := h
  have hlength : t.parties.length = 1 := by rw [hsingle, List.length_singleton]
  rw [length_parties, hready, List.length_cons] at hlength
  exact List.eq_nil_of_length_eq_zero (by omega)

/-- A producer whose request is met is not behind one that waits. -/
theorem eq_nil_of_met (h : Tame t) (hready : t.ready = party :: rest) {stream : Stream ε}
    {reply : Reply ε} {new gone : List ε}
    (houtlook : Outlook t.stream party.ask (.met stream reply new gone)) : t.waiting = [] := by
  have hmem : party ∈ t.parties := by simp [parties, hready]
  have hask := h.asks party hmem
  rcases h.even with heven | hsingle
  · have hsends := (heven party hmem).1
    generalize party.ask = ask at houtlook hask hsends
    cases houtlook with
    | sent _ room => exact h.eq_nil_of_room room
    | shut _ => cases hsends
    | received _ => cases hask
    | collected _ => cases hask
    | newest _ => cases hask
  · exact eq_nil_of_single hready hsingle

/-- Those who are left are as before. -/
theorem of_sublist (h : Tame t) (hcapacity : t'.stream.capacity = t.stream.capacity)
    (hwatchful : Watchful t') (hsub : t'.parties.Sublist t.parties) : Tame t' where
  capacity := hcapacity ▸ h.capacity
  watchful := hwatchful
  asks party hparty := h.asks party (hsub.subset hparty)
  even := by
    rcases h.even with heven | ⟨party, hparty⟩
    · exact .inl fun party hparty => heven party (hsub.subset hparty)
    · rw [hparty] at hsub
      rcases List.sublist_singleton.mp hsub with hnil | hone
      · rw [hnil]
        exact .inl (by simp)
      · exact .inr ⟨party, hone⟩

/-- A look does not change what comes of it if everything is taken at once. -/
theorem look (h : Tame t) (hready : t.ready = party :: rest) :
    Tame (t.serveAt 0) ∧ (t.serveAt 0).absorb = t.absorb := by
  have hwatchful := h.watchful.serveAt 0
  have hask := h.asks party (by simp [parties, hready])
  have hturn := turn hready
  generalize t.serveAt 0 = t' at hturn hwatchful
  have hrest : (t.waiting ++ rest).Sublist t.parties := by
    rw [parties, hready]
    exact (List.sublist_cons_self party rest).append_left t.waiting
  cases hturn with
  | withdrawn left =>
      have hwaiting : t.waiting = [] := by
        rcases h.even with heven | hsingle
        · have hstayed := (heven party (by simp [parties, hready])).2
          rw [left] at hstayed
          cases hstayed
        · exact eq_nil_of_single hready hsingle
      refine ⟨h.of_sublist rfl hwatchful hrest, ?_⟩
      exact absorb_of_answered hready hwaiting (by simp [parties, hwaiting, finish])
        (skim_serve_of_withdrawn left)
  | turnedDown stayed outlook =>
      have hwaiting := h.watchful.eq_nil_of_closed outlook.turnedDown_closed
      refine ⟨h.of_sublist rfl hwatchful hrest, ?_⟩
      exact absorb_of_answered hready hwaiting (by simp [parties, hwaiting, finish])
        (skim_serve_of_turnedDown stayed hask outlook)
  | met stayed outlook =>
      -- nobody waits before a party that is met, so the line it leaves is in the same order
      have hwaiting := h.eq_nil_of_met hready outlook
      rw [hwaiting, List.append_nil] at hwatchful ⊢
      rw [hwaiting] at hrest
      refine ⟨h.of_sublist outlook.met_capacity hwatchful hrest, ?_⟩
      exact absorb_of_answered hready hwaiting rfl
        (skim_serve_of_met h.capacity stayed hask outlook)
  | heldUp stayed outlook =>
      have hparties : (({ t with ready := rest } : Traffic ι ε).enqueue party).parties =
          t.parties := by
        simp [parties, enqueue, hready]
      refine ⟨⟨h.capacity, hwatchful, hparties ▸ h.asks, hparties ▸ h.even⟩, ?_⟩
      exact absorb_congr hparties rfl
  | emptied _ outlook took => exact absurd (outlook.blocked_taken hask).1 took

end Tame

end Absorb

/-! ### The consumer in the line -/

section Flow

variable [BEq ι] {c : ι} {t t' : Traffic ι ε} {party own : Party ι ε} {rest : List (Party ι ε)}

/-- A consumer that stays. -/
structure Consumes (c : ι) (party : Party ι ε) : Prop where
  id : (party.id == c) = true
  receives : party.ask.receives = true
  stayed : party.withdrawn = false

/-- Where the consumer is.  Nobody is behind it in the line, or else nobody is before it or
waits. -/
inductive Place (c : ι) (t : Traffic ι ε) : Prop
  | absent (others : ∀ party ∈ t.parties, (party.id == c) = false)
  | waits {own : Party ι ε} (consumes : Consumes c own) (waiting : t.waiting = [own])
      (others : ∀ party ∈ t.ready, (party.id == c) = false)
  | inLine {own : Party ι ε} {front back : List (Party ι ε)} (consumes : Consumes c own)
      (ready : t.ready = front ++ own :: back)
      (others : ∀ party ∈ t.waiting ++ front ++ back, (party.id == c) = false)
      (apart : back = [] ∨ front = [] ∧ t.waiting = [])

/-- A consumer among producers, none of whom waits in vain. -/
structure Flow (c : ι) (t : Traffic ι ε) : Prop where
  watchful : Watchful t
  tame : Tame (t.without c)
  place : Place c t

theorem parties_without (t : Traffic ι ε) :
    (t.without c).parties = t.parties.filter fun party => !(party.id == c) := by
  rw [parties, parties, List.filter_append]
  rfl

theorem filter_others {those : List (Party ι ε)}
    (hothers : ∀ party ∈ those, (party.id == c) = false) :
    (those.filter fun party => !(party.id == c)) = those :=
  List.filter_eq_self.mpr fun party hparty => by simp [hothers party hparty]

theorem Watchful.without (h : Watchful t) : Watchful (t.without c) :=
  fun party hparty => h party (List.mem_filter.mp hparty).1

namespace Flow

theorem eq_nil_of_empty (h : Flow c t) (hempty : t.stream.buffer = [])
    (hothers : ∀ party ∈ t.waiting, (party.id == c) = false) : t.waiting = [] := by
  have hroom : (t.without c).stream.buffer.length < (t.without c).stream.capacity := by
    rw [without_stream, hempty]
    exact h.tame.capacity
  rw [← filter_others hothers]
  exact h.tame.eq_nil_of_room hroom

theorem place_of_absent (hready : t.ready = party :: rest) (hask : party.ask.receives = false)
    (hothers : ∀ other ∈ t.parties, (other.id == c) = false) (hturn : Turn t party rest t') :
    Place c t' := by
  have hrest : ∀ other ∈ t.waiting ++ rest, (other.id == c) = false := by
    intro other hother
    apply hothers
    rw [parties, hready]
    exact (List.sublist_cons_self party rest).append_left t.waiting |>.subset hother
  cases hturn with
  | withdrawn _ => exact .absent hrest
  | turnedDown _ _ => exact .absent hrest
  | met _ _ =>
      refine .absent fun other hother => hrest other ?_
      simpa [parties, or_comm] using hother
  | heldUp _ _ =>
      refine .absent fun other hother => hothers other ?_
      simpa [parties, enqueue, hready] using hother
  | emptied _ outlook took => exact absurd (outlook.blocked_taken hask).1 took

/-- Where the consumer waits there is room, and so no producer has to wait behind it. -/
theorem place_of_waits (h : Flow c t) (hask : party.ask.receives = false)
    (hconsumes : Consumes c own) (hwaiting : t.waiting = [own])
    (hothers : ∀ other ∈ rest, (other.id == c) = false) (hturn : Turn t party rest t') :
    Place c t' := by
  cases hturn with
  | withdrawn _ => exact .waits hconsumes hwaiting hothers
  | turnedDown _ _ => exact .waits hconsumes hwaiting hothers
  | met _ _ =>
      rw [hwaiting]
      exact .inLine hconsumes rfl (by simpa using hothers) (.inl rfl)
  | heldUp _ outlook =>
      have hheld := h.watchful own (by simp [hwaiting])
      have hreceives := hheld.receives h.tame.capacity hconsumes.receives outlook.blocked_holdsUp
      cases hreceives.symm.trans hask
  | emptied _ outlook took => exact absurd (outlook.blocked_taken hask).1 took

/-- Whoever is before the consumer in the line stays before it. -/
theorem place_of_inLine {front : List (Party ι ε)} (h : Flow c t)
    (hready : t.ready = party :: (front ++ [own])) (hid : (party.id == c) = false)
    (hask : party.ask.receives = false) (hconsumes : Consumes c own)
    (hothers : ∀ other ∈ t.waiting ++ front, (other.id == c) = false)
    (hturn : Turn t party (front ++ [own]) t') : Place c t' := by
  have hnobodyBehind : ∀ other ∈ t.waiting ++ front ++ [], (other.id == c) = false := by
    rwa [List.append_nil]
  cases hturn with
  | withdrawn _ => exact .inLine hconsumes rfl hnobodyBehind (.inl rfl)
  | turnedDown _ _ => exact .inLine hconsumes rfl hnobodyBehind (.inl rfl)
  | met _ outlook =>
      have hfirst : (t.without c).ready = party :: front := by
        have hfront := filter_others fun other hother =>
          hothers other (List.mem_append_right t.waiting hother)
        simp [Traffic.without, hready, hid, hconsumes.id, List.filter_append, hfront]
      have hnobody : (t.waiting.filter fun party => !(party.id == c)) = [] :=
        h.tame.eq_nil_of_met hfirst outlook
      rw [filter_others fun other hother => hothers other (List.mem_append_left front hother)]
        at hnobody
      rw [hnobody, List.append_nil]
      refine .inLine hconsumes rfl (fun other hother => ?_) (.inl rfl)
      exact hothers other (List.mem_append_right t.waiting (by simpa using hother))
  | heldUp _ _ =>
      refine .inLine hconsumes rfl (fun other hother => ?_) (.inl rfl)
      rw [List.append_nil, enqueue, List.append_assoc, List.mem_append, List.mem_append,
        List.mem_singleton] at hother
      rcases hother with hother | rfl | hother
      · exact hothers other (List.mem_append_left front hother)
      · exact hid
      · exact hothers other (List.mem_append_right t.waiting hother)
  | emptied _ outlook took => exact absurd (outlook.blocked_taken hask).1 took

/-- A producer looks. -/
theorem place_of_ne (h : Flow c t) (hready : t.ready = party :: rest)
    (hid : (party.id == c) = false) : Place c (t.serveAt 0) := by
  have hask : party.ask.receives = false :=
    h.tame.asks party (by simp [parties, Traffic.without, hready, hid])
  have hturn := turn hready
  cases h.place with
  | absent others => exact place_of_absent hready hask others hturn
  | waits consumes waiting others =>
      have hrest : ∀ other ∈ rest, (other.id == c) = false := fun other hother =>
        others other (by simp [hready, hother])
      exact h.place_of_waits hask consumes waiting hrest hturn
  | @inLine own front back consumes ready others apart =>
      rw [hready] at ready
      cases front with
      | nil =>
          obtain rfl : party = own := (List.cons.inj ready).1
          cases consumes.id.symm.trans hid
      | cons first front =>
          obtain ⟨rfl, rfl⟩ := List.cons.inj ready
          obtain rfl : back = [] := apart.resolve_right (by simp)
          have hothers : ∀ other ∈ t.waiting ++ front, (other.id == c) = false := by
            intro other hother
            apply others
            simp only [List.append_nil, List.mem_append, List.mem_cons] at hother ⊢
            exact hother.imp_right .inr
          exact h.place_of_inLine hready hid hask consumes hothers hturn

/-- The consumer is to look next. -/
theorem consumes_of_eq (h : Flow c t) (hready : t.ready = party :: rest)
    (hid : (party.id == c) = true) :
    Consumes c party ∧ (∀ other ∈ t.waiting ++ rest, (other.id == c) = false) ∧
      (rest = [] ∨ t.waiting = []) := by
  cases h.place with
  | absent others =>
      have hne := others party (by simp [parties, hready])
      cases hid.symm.trans hne
  | waits _ _ others =>
      have hne := others party (by simp [hready])
      cases hid.symm.trans hne
  | @inLine own front back consumes ready others apart =>
      rw [hready] at ready
      cases front with
      | nil =>
          obtain ⟨rfl, rfl⟩ := List.cons.inj ready
          rw [List.append_nil] at others
          exact ⟨consumes, others, apart.imp_right And.right⟩
      | cons first front =>
          obtain rfl : party = first := (List.cons.inj ready).1
          have hne := others party (by simp)
          cases hid.symm.trans hne

/-- The consumer takes from the stream what would be taken anyway. -/
theorem bare_of_taken {stream : Stream ε} {gone : List ε} (waiting ready : List (Party ι ε))
    {finished : List (ι × Reply ε)} (hcapacity : stream.capacity = t.stream.capacity)
    (hclosed : stream.closed = t.stream.closed) (hbuffer : gone ++ stream.buffer = t.stream.buffer)
    (hfinished : (finished.filter fun answer => !(answer.1 == c)) =
      t.finished.filter fun answer => !(answer.1 == c)) :
    ((⟨stream, waiting, ready, finished, t.accepted, t.taken ++ gone⟩ :
        Traffic ι ε).without c).bare = (t.without c).bare := by
  obtain ⟨capacity, buffer, closed⟩ := stream
  cases hcapacity
  cases hclosed
  simp only [bare, skim, Traffic.without, hfinished, ← hbuffer, List.append_assoc]

theorem of_taken (h : Flow c t) (hready : t.ready = party :: rest) (hid : (party.id == c) = true)
    (hwaiting : (t'.waiting.filter fun party => !(party.id == c)) = [])
    (hready' : t'.ready = rest ++ t.waiting) (hbare : (t'.without c).bare = (t.without c).bare)
    (hwatchful : Watchful t') :
    Tame (t'.without c) ∧ (t'.without c).absorb = (t.without c).absorb := by
  obtain ⟨-, -, hapart⟩ := h.consumes_of_eq hready hid
  have hparties : (t'.without c).parties = (t.without c).parties := by
    rw [parties_without, parties_without, parties, parties, List.filter_append, hwaiting, hready',
      hready]
    -- those who are woken go behind the others: in order, since there is only one of the two
    rcases hapart with rfl | hnil
    · simp [hid]
    · simp [hid, hnil]
  have hcapacity : (t'.without c).stream.capacity = (t.without c).stream.capacity := by
    have hstream := congrArg (fun v : Traffic ι ε => v.stream.capacity) hbare
    exact hstream
  exact ⟨h.tame.of_sublist hcapacity hwatchful.without (hparties ▸ .refl _),
    absorb_congr hparties hbare⟩

/-- The consumer looks. -/
theorem look_of_eq (h : Flow c t) (hready : t.ready = party :: rest)
    (hid : (party.id == c) = true) :
    Flow c (t.serveAt 0) ∧ ((t.serveAt 0).without c).absorb = (t.without c).absorb := by
  obtain ⟨hconsumes, hothers, hapart⟩ := h.consumes_of_eq hready hid
  have hwatchful := h.watchful.serveAt 0
  have hanswered (reply : Reply ε) :
      ((t.finished ++ [(party.id, reply)]).filter fun answer => !(answer.1 == c)) =
        t.finished.filter fun answer => !(answer.1 == c) := by
    simp [hid]
  have hback : ∀ other ∈ rest ++ t.waiting, (other.id == c) = false := fun other hother =>
    hothers other (by simpa [or_comm] using hother)
  have hturn := turn hready
  generalize t.serveAt 0 = t' at hturn hwatchful
  cases hturn with
  | withdrawn left => cases hconsumes.stayed.symm.trans left
  | @met stream reply new gone _ outlook =>
      obtain ⟨rfl, hclosed⟩ := outlook.met_of_receives hconsumes.receives
      have hbuffer := outlook.met_buffer
      rw [List.append_nil] at hbuffer ⊢
      have hbare := bare_of_taken [] (rest ++ t.waiting) outlook.met_capacity hclosed hbuffer
        (hanswered reply)
      obtain ⟨htame, habsorb⟩ := h.of_taken hready hid rfl rfl hbare hwatchful
      exact ⟨⟨hwatchful, htame, .absent (by simpa [parties] using hback)⟩, habsorb⟩
  | @turnedDown reply _ _ =>
      have hsame : (({ t with ready := rest } : Traffic ι ε).finish party.id reply).without c =
          t.without c := by
        rw [without_finish_of_eq hid]
        simp [Traffic.without, hready, hid]
      exact ⟨⟨hwatchful, hsame ▸ h.tame, .absent hothers⟩, by rw [hsame]⟩
  | heldUp _ outlook =>
      have hsame : (({ t with ready := rest } : Traffic ι ε).enqueue party).without c =
          t.without c := by
        rw [without_enqueue_of_eq hid]
        simp [Traffic.without, hready, hid]
      have hnobody := h.eq_nil_of_empty (outlook.blocked_holdsUp.empty hconsumes.receives)
        fun other hother => hothers other (List.mem_append_left _ hother)
      have hplace : Place c (({ t with ready := rest } : Traffic ι ε).enqueue party) :=
        .waits hconsumes (by simp [enqueue, hnobody])
          fun other hother => hothers other (List.mem_append_right _ hother)
      exact ⟨⟨hwatchful, hsame ▸ h.tame, hplace⟩, by rw [hsame]⟩
  | @emptied stream ask gone stayed outlook _ =>
      obtain ⟨hunclosed, hunclosed'⟩ := outlook.blocked_unclosed
      have hbare := bare_of_taken (c := c) [{ party with ask := ask }] (rest ++ t.waiting)
        outlook.blocked_capacity (hunclosed'.trans hunclosed.symm) outlook.blocked_buffer rfl
      obtain ⟨htame, habsorb⟩ := h.of_taken hready hid (by simp [hid]) rfl hbare hwatchful
      have hstays : Consumes c { party with ask := ask } :=
        ⟨hid, outlook.blocked_receives.trans hconsumes.receives, stayed⟩
      exact ⟨⟨hwatchful, htame, .waits hstays rfl hback⟩, habsorb⟩

/-- Whoever looks, it makes no difference to what comes of it if everything is taken at once. -/
theorem look (h : Flow c t) (hready : t.ready = party :: rest) :
    Flow c (t.serveAt 0) ∧ ((t.serveAt 0).without c).absorb = (t.without c).absorb := by
  cases hid : party.id == c with
  | true => exact h.look_of_eq hready hid
  | false =>
      have hfirst : (t.without c).ready = party :: rest.filter fun party => !(party.id == c) := by
        simp [Traffic.without, hready, hid]
      have hsame := without_serveAt_of_ne hready hid
      obtain ⟨htame, habsorb⟩ := h.tame.look hfirst
      rw [hsame]
      exact ⟨⟨h.watchful.serveAt 0, hsame ▸ htame, h.place_of_ne hready hid⟩, habsorb⟩

/-- The consumer asks, for the first time or again. -/
theorem start [LawfulBEq ι] (h : Flow c t) (hgone : ∀ party ∈ t.parties, (party.id == c) = false)
    {ask : Ask ε} (hask : ask.receives = true) :
    Flow c (t.start c ask) ∧ (t.start c ask).without c = t.without c := by
  have hsame : (t.start c ask).without c = t.without c := by simp [Traffic.without, Traffic.start]
  have hothers : ∀ party ∈ t.waiting ++ t.ready ++ [], (party.id == c) = false := by
    rw [List.append_nil]
    exact hgone
  exact ⟨⟨h.watchful, hsame ▸ h.tame, .inLine ⟨BEq.rfl, hask, rfl⟩ rfl hothers (.inl rfl)⟩, hsame⟩

/-- Once everybody has looked and everything is taken, no producer is left. -/
theorem parties_eq_nil (h : Flow c t) (hready : t.ready = []) (hempty : t.stream.buffer = []) :
    (t.without c).parties = [] := by
  rw [parties_without, parties, hready, List.append_nil]
  cases h.place with
  | absent others =>
      rw [parties, hready, List.append_nil] at others
      rw [h.eq_nil_of_empty hempty others, List.filter_nil]
  | waits consumes waiting _ => simp [waiting, consumes.id]
  | inLine _ ready _ _ => simp [hready] at ready

end Flow

omit [BEq ι] in
theorem Tame.of_nil (hcapacity : 1 ≤ t.stream.capacity) (hnobody : t.parties = []) : Tame t where
  capacity := hcapacity
  watchful party hparty := by
    have hmem : party ∈ t.parties := List.mem_append_left _ hparty
    rw [hnobody] at hmem
    cases hmem
  asks := by simp [hnobody]
  even := .inl (by simp [hnobody])

/-- A producer that comes when no other one is left is the only one. -/
theorem Tame.step_of_nil (hcapacity : 1 ≤ t.stream.capacity) (hnobody : t.parties = [])
    {s : Step ι ε} (hs : s.produces c = true) : Tame (t.step s) := by
  obtain ⟨hwaiting, hready⟩ := List.append_eq_nil_iff.mp hnobody
  cases s with
  | start id ask =>
      simp only [Step.produces, Bool.and_eq_true, Bool.not_eq_true'] at hs
      have hparties : (t.start id ask).parties = [⟨id, ask, false⟩] := by
        rw [parties_start, hnobody, List.nil_append]
      have hwatchful : Watchful (t.start id ask) := (Tame.of_nil hcapacity hnobody).watchful
      refine ⟨hcapacity, hwatchful, ?_, .inr ⟨_, hparties⟩⟩
      simp [step, hparties, hs.2]
  | serve position =>
      rw [step, serveAt_of_none (by simp [hready])]
      exact .of_nil hcapacity hnobody
  | withdraw id =>
      refine .of_nil hcapacity ?_
      simp [step, withdraw_of_nil hready, hwaiting, parties]
  | close =>
      cases hclosed : t.stream.closed with
      | true =>
          rw [step, closeNow_of_closed hclosed]
          exact .of_nil hcapacity hnobody
      | false =>
          rw [step, closeNow_of_unclosed hclosed]
          exact .of_nil hcapacity (by simp [parties, wake, hwaiting, hready])
  | sendFinal entry =>
      cases hclosed : t.stream.closed with
      | true =>
          rw [step, sendFinal_of_closed hclosed]
          exact .of_nil hcapacity hnobody
      | false =>
          rw [step, sendFinal_of_unclosed hclosed]
          exact .of_nil hcapacity (by simp [parties, wake, hwaiting, hready])

theorem concerns_of_produces {s : Step ι ε} (hs : s.produces c = true) : s.concerns c = false := by
  cases s with
  | start id ask =>
      simp only [Step.produces, Bool.and_eq_true, Bool.not_eq_true'] at hs
      exact hs.1
  | withdraw id => simpa [Step.produces, Step.concerns] using hs
  | _ => rfl

namespace Flow

/-- Who waits goes on waiting, or is the only one to look. -/
theorem place_step [LawfulBEq ι] (h : Flow c t) (hready : t.ready = [])
    {s : Step ι ε} (hs : s.produces c = true) : Place c (t.step s) := by
  cases h.place with
  | inLine _ ready _ _ => simp [hready] at ready
  | absent others =>
      have hnobody : (t.parties.filter fun party => party.id == c) = [] :=
        List.filter_eq_nil_iff.mpr fun party hparty => by simp [others party hparty]
      have hstill : ((t.step s).parties.filter fun party => party.id == c).Perm
          (t.parties.filter fun party => party.id == c) := by
        cases s with
        | serve position => rw [Traffic.step, serveAt_of_none (by simp [hready])]
        | _ => exact (letAlone_step hs (by simp)).parties
      rw [hnobody, List.perm_nil, List.filter_eq_nil_iff] at hstill
      exact .absent fun party hparty => by simpa using hstill party hparty
  | @waits own consumes waiting _ =>
      have hwoken {t' : Traffic ι ε} (hready' : t'.ready = t.ready ++ t.waiting)
          (hwaiting' : t'.waiting = []) : Place c t' := by
        rw [hready, waiting] at hready'
        exact .inLine consumes hready' (by simp [hwaiting']) (.inl rfl)
      have hstays {t' : Traffic ι ε} (hready' : ∀ party ∈ t'.ready, (party.id == c) = false)
          (hwaiting' : t'.waiting = t.waiting) : Place c t' :=
        .waits consumes (hwaiting'.trans waiting) hready'
      cases s with
      | start id ask =>
          simp only [Step.produces, Bool.and_eq_true, Bool.not_eq_true'] at hs
          exact hstays (by simpa [Traffic.step, Traffic.start, hready] using hs.1) rfl
      | serve position =>
          rw [Traffic.step, serveAt_of_none (by simp [hready])]
          exact h.place
      | withdraw id =>
          have hne : (own.id == id) = false := by
            have hid : id ≠ c := by simpa [Step.produces] using hs
            rw [eq_of_beq consumes.id]
            simpa using hid.symm
          rw [Traffic.step, withdraw_of_nil hready]
          exact hstays (by simp [waiting, hne]) (by simp [waiting, hne])
      | close =>
          cases hclosed : t.stream.closed with
          | true =>
              rw [Traffic.step, closeNow_of_closed hclosed]
              exact h.place
          | false =>
              rw [Traffic.step, closeNow_of_unclosed hclosed]
              exact hwoken rfl rfl
      | sendFinal entry =>
          cases hclosed : t.stream.closed with
          | true =>
              rw [Traffic.step, sendFinal_of_closed hclosed]
              exact h.place
          | false =>
              rw [Traffic.step, sendFinal_of_unclosed hclosed]
              exact hwoken rfl rfl

theorem step [LawfulBEq ι] (h : Flow c t) (hready : t.ready = []) (hempty : t.stream.buffer = [])
    {s : Step ι ε} (hs : s.produces c = true) :
    Flow c (t.step s) ∧ (t.step s).without c = (t.without c).step s := by
  have hsame : (t.step s).without c = (t.without c).step s := by
    rw [without_step hready, concerns_of_produces hs]
    rfl
  have htame : Tame ((t.without c).step s) :=
    .step_of_nil h.tame.capacity (h.parties_eq_nil hready hempty) hs
  exact ⟨⟨h.watchful.step s, hsame ▸ htame, h.place_step hready hs⟩, hsame⟩

end Flow

end Flow

end Traffic

end Vigil.Stream
