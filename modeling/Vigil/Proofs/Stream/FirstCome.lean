import Mathlib.Data.List.Nodup
import Vigil.Proofs.Stream.Rounds

/-!
# First come, first served

Whoever is woken in vain goes back to the end of the line, and so does everybody else: the line
keeps its order.  This rests on all who wait in it being of one kind.  While they are, who looks
first is the longest waiting of those whom a change can serve, and who goes back finds only such in
the line as came before.  Between two rounds all of them are of one kind, since a stream is not full
and empty at once; and in a round at most the party that has just come is of another.
-/

namespace Vigil.Stream

variable {ι ε : Type}

/-! ### Lists in order -/

section Order

variable {α β γ : Type}

/-- What is picked from a list without repetition, in its order, is what a filter leaves. -/
theorem filter_eq_of_sublist {l l' : List α} (hsublist : l.Sublist l') (hnodup : l'.Nodup)
    {keep : α → Bool} (hkeep : ∀ a ∈ l', keep a = true ↔ a ∈ l) : l'.filter keep = l := by
  induction hsublist with
  | slnil => rfl
  | @cons l l' a hsublist ih =>
      obtain ⟨hnew, hnodup⟩ := List.nodup_cons.mp hnodup
      have hdrop : ¬ keep a = true := fun hkept =>
        hnew (hsublist.subset ((hkeep a List.mem_cons_self).mp hkept))
      rw [List.filter_cons_of_neg hdrop]
      exact ih hnodup fun b hb => hkeep b (List.mem_cons_of_mem _ hb)
  | @cons_cons l l' a hsublist ih =>
      obtain ⟨hnew, hnodup⟩ := List.nodup_cons.mp hnodup
      rw [List.filter_cons_of_pos ((hkeep a List.mem_cons_self).mpr List.mem_cons_self)]
      congr 1
      apply ih hnodup
      intro b hb
      rw [hkeep b (List.mem_cons_of_mem _ hb), List.mem_cons, or_iff_right]
      rintro rfl
      exact hnew hb

theorem map_filterMap_sublist {pick : α → Option β} {f : β → γ} {g : α → γ}
    (hpick : ∀ a b, pick a = some b → f b = g a) (l : List α) :
    ((l.filterMap pick).map f).Sublist (l.map g) := by
  induction l with
  | nil => exact List.Sublist.refl _
  | cons a l ih =>
      rw [List.filterMap_cons]
      cases hb : pick a with
      | none => exact ih.cons _
      | some b =>
          simp only [List.map_cons, hpick a b hb]
          exact ih.cons_cons _

/-- Looking the names of some pairs up in order gives what they are paired with. -/
theorem filterMap_eq_of_sublist {names : List α} {pairs : List (α × β)} {find : α → Option β}
    (hsublist : (pairs.map Prod.fst).Sublist names) (hnodup : names.Nodup)
    (hfind : ∀ a b, find a = some b ↔ (a, b) ∈ pairs) :
    (names.filter fun a => (find a).isSome) = pairs.map Prod.fst ∧
      names.filterMap find = pairs.map Prod.snd := by
  have hnames : (names.filter fun a => (find a).isSome) = pairs.map Prod.fst := by
    apply filter_eq_of_sublist hsublist hnodup
    intro a _
    rw [Option.isSome_iff_exists, List.mem_map]
    constructor
    · rintro ⟨b, hb⟩
      exact ⟨(a, b), (hfind a b).mp hb, rfl⟩
    · rintro ⟨⟨_, b⟩, hpair, rfl⟩
      exact ⟨b, (hfind _ b).mpr hpair⟩
  refine ⟨hnames, ?_⟩
  calc names.filterMap find
      = (names.filter fun a => (find a).isSome).filterMap find := by
        rw [List.filterMap_filter]
        apply List.filterMap_congr
        intro a _
        cases find a <;> rfl
    _ = pairs.filterMap (find ∘ Prod.fst) := by rw [hnames, List.filterMap_map]
    _ = pairs.filterMap (some ∘ Prod.snd) := by
        apply List.filterMap_congr
        intro pair hpair
        exact (hfind pair.1 pair.2).mpr hpair
    _ = pairs.map Prod.snd := by rw [List.filterMap_eq_map]

end Order

/-! ### Who wants what -/

/-- The entry that a party offers, with its name, unless it was withdrawn. -/
def Party.offer? : Party ι ε → Option (ι × ε)
  | ⟨id, .send entry, false⟩ => some (id, entry)
  | _ => none

/-- The name of a party that wants one entry, unless it was withdrawn. -/
def Party.reader? : Party ι ε → Option ι
  | ⟨id, .receive, false⟩ => some id
  | _ => none

theorem Party.of_offer? {party : Party ι ε} {offer : ι × ε} (h : party.offer? = some offer) :
    party = ⟨offer.1, .send offer.2, false⟩ := by
  obtain ⟨id, ask, gone⟩ := party
  cases ask <;> cases gone <;> cases h
  rfl

theorem Party.of_reader? {party : Party ι ε} {id : ι} (h : party.reader? = some id) :
    party = ⟨id, .receive, false⟩ := by
  obtain ⟨id, ask, gone⟩ := party
  cases ask <;> cases gone <;> cases h
  rfl

theorem Party.offer?_of_withdrawn {party : Party ι ε} (h : party.withdrawn = true) :
    party.offer? = none := by
  obtain ⟨id, ask, gone⟩ := party
  cases h
  cases ask <;> rfl

theorem Party.reader?_of_withdrawn {party : Party ι ε} (h : party.withdrawn = true) :
    party.reader? = none := by
  obtain ⟨id, ask, gone⟩ := party
  cases h
  cases ask <;> rfl

namespace Outlook

variable {s stream : Stream ε} {ask : Ask ε} {reply : Reply ε} {accepted taken : List ε}

/-- Either the request was to send and was met, or nothing was put on the stream. -/
theorem met_isSent (h : Outlook s ask (.met stream reply accepted taken)) :
    (∃ entry, ask = .send entry ∧ reply = .sent ∧ accepted = [entry] ∧ s.closed = false) ∨
      reply.isSent = false ∧ accepted = [] := by
  cases h with
  | sent unclosed _ => exact .inl ⟨_, rfl, rfl, rfl, unclosed⟩
  | received _ => exact .inr ⟨rfl, rfl⟩
  | collected _ => exact .inr ⟨rfl, rfl⟩
  | newest _ => exact .inr ⟨rfl, rfl⟩
  | shut _ => exact .inr ⟨rfl, rfl⟩

theorem turnedDown_isSent (h : Outlook s ask (.turnedDown reply)) : reply.isSent = false := by
  cases h <;> rfl

/-- An entry is handed over only to who asked for one. -/
theorem met_isReceived (h : Outlook s ask (.met stream reply accepted taken)) :
    (∃ entry, ask = .receive ∧ reply = .received entry) ∨ reply.handed? = none := by
  cases h with
  | received _ => exact .inl ⟨_, rfl, rfl⟩
  | sent _ _ => exact .inr rfl
  | collected _ => exact .inr rfl
  | newest _ => exact .inr rfl
  | shut _ => exact .inr rfl

end Outlook

namespace Traffic

/-! ### One kind in line -/

/-- Everybody in a line wants to send, or everybody wants to take entries. -/
def OneKind (line : List (Party ι ε)) : Prop :=
  (∀ party ∈ line, party.ask.sends = true) ∨ ∀ party ∈ line, party.ask.receives = true

theorem OneKind.subset {line line' : List (Party ι ε)} (h : OneKind line)
    (hsubset : ∀ party ∈ line', ∃ party' ∈ line, party.ask = party'.ask) : OneKind line' := by
  rcases h with hsend | hreceive
  · left
    intro party hparty
    obtain ⟨party', hparty', hask⟩ := hsubset party hparty
    rw [hask]
    exact hsend party' hparty'
  · right
    intro party hparty
    obtain ⟨party', hparty', hask⟩ := hsubset party hparty
    rw [hask]
    exact hreceive party' hparty'

/-- A stream is not full and empty at once, so those who wait are of one kind. -/
theorem Watchful.oneKind {t : Traffic ι ε} (h : Watchful t) (hcapacity : 1 ≤ t.stream.capacity) :
    OneKind t.waiting := by
  by_cases hsender : ∃ party ∈ t.waiting, party.ask.sends = true
  · left
    obtain ⟨sender, hsender, hsends⟩ := hsender
    have hfull := (h sender hsender).full hsends
    intro party hparty
    have hheld := h party hparty
    cases hask : party.ask with
    | send entry => rfl
    | close => rw [hask] at hheld; exact hheld.elim
    | _ =>
        have hempty := hheld.empty (by rw [hask]; rfl)
        rw [hempty, List.length_nil] at hfull
        omega
  · right
    intro party hparty
    have hheld := h party hparty
    cases hask : party.ask with
    | send entry => exact (hsender ⟨party, hparty, by rw [hask]; rfl⟩).elim
    | close => rw [hask] at hheld; exact hheld.elim
    | _ => rfl

/-- All parties are of one kind, or only one is to look. -/
def Orderly (t : Traffic ι ε) : Prop := OneKind t.parties ∨ ∃ party, t.ready = [party]

section Line

variable {t t' : Traffic ι ε} {party : Party ι ε} {rest : List (Party ι ε)}

/-- A party that is met leaves none of its kind behind in the line of those who wait. -/
theorem not_kind_of_met {stream : Stream ε} {reply : Reply ε} {new gone : List ε}
    (hwatchful : Watchful t)
    (outlook : Outlook t.stream party.ask (.met stream reply new gone)) :
    ∀ other ∈ t.waiting, (party.ask.sends = true → other.ask.sends = false) ∧
      (party.ask.receives = true → other.ask.receives = false) := by
  intro other hother
  have hheld := hwatchful other hother
  generalize party.ask = ask at outlook
  constructor
  · intro hsends
    by_contra hother
    have hfull := hheld.full (by simpa using hother)
    cases outlook with
    | sent _ room => omega
    | _ => cases hsends
  · intro hreceives
    by_contra hother
    have hempty := hheld.empty (by simpa using hother)
    have hunclosed := hheld.unclosed
    cases outlook with
    | received buffer => rw [hempty] at buffer; cases buffer
    | collected closed => cases hunclosed.symm.trans closed
    | newest closed => cases hunclosed.symm.trans closed
    | sent _ _ => cases hreceives
    | shut _ => cases hreceives

/-- A party that is met and all who wait are not of one kind, unless nobody waits. -/
theorem waiting_or_rest_of_met {stream : Stream ε} {reply : Reply ε} {new gone : List ε}
    (hready : t.ready = party :: rest) (horderly : t.Orderly) (hwatchful : Watchful t)
    (outlook : Outlook t.stream party.ask (.met stream reply new gone)) :
    t.waiting = [] ∨ rest = [] := by
  rcases horderly with hkind | ⟨only, honly⟩
  · left
    apply List.eq_nil_iff_forall_not_mem.mpr
    intro other hother
    have hnot := not_kind_of_met hwatchful outlook other hother
    have hmem : party ∈ t.parties := by simp [parties, hready]
    have hmem' : other ∈ t.parties := List.mem_append_left _ hother
    rcases hkind with hsend | hreceive
    · have hfalse := hnot.1 (hsend party hmem)
      rw [hsend other hmem'] at hfalse
      cases hfalse
    · have hfalse := hnot.2 (hreceive party hmem)
      rw [hreceive other hmem'] at hfalse
      cases hfalse
  · right
    rw [hready] at honly
    exact (List.cons.inj honly).2

/-- A look takes the party out of the line or leaves the line as it was. -/
theorem parties_of_turn (hready : t.ready = party :: rest) (horderly : t.Orderly)
    (hwatchful : Watchful t) (hask : party.ask.iterates = true) (h : Turn t party rest t') :
    t'.parties.Sublist t.parties := by
  have hparties : t.parties = t.waiting ++ party :: rest := by rw [parties, hready]
  have hwithout : (t.waiting ++ rest).Sublist t.parties := by
    rw [hparties]
    exact (List.sublist_cons_self party rest).append_left t.waiting
  cases h with
  | withdrawn _ => exact hwithout
  | turnedDown _ _ => exact hwithout
  | met _ outlook =>
      rcases waiting_or_rest_of_met hready horderly hwatchful outlook with hnone | hnone
      · simpa [parties, hnone] using hwithout
      · simp [parties, hnone]
  | heldUp _ _ =>
      rw [hparties]
      simp [parties, enqueue]
  | emptied _ outlook took => exact (took (outlook.blocked_iterates hask).1).elim

theorem Orderly.turn (hready : t.ready = party :: rest) (horderly : t.Orderly)
    (hwatchful : Watchful t) (hwatchful' : Watchful t') (hcapacity : 1 ≤ t.stream.capacity)
    (hcapacity' : 1 ≤ t'.stream.capacity) (hask : party.ask.iterates = true)
    (h : Turn t party rest t') : t'.Orderly := by
  left
  rcases horderly with hkind | ⟨only, honly⟩
  · apply hkind.subset
    intro other hother
    have hsublist := parties_of_turn hready (.inl hkind) hwatchful hask h
    exact ⟨other, hsublist.subset hother, rfl⟩
  · obtain rfl : rest = [] := by
      rw [hready] at honly
      exact (List.cons.inj honly).2
    -- the one party has looked: who is left is in the line of those who wait
    have hline : OneKind t'.waiting := hwatchful'.oneKind hcapacity'
    cases h with
    | withdrawn _ => simpa [parties, finish] using hline
    | turnedDown _ _ => simpa [parties, finish] using hline
    | met _ _ => simpa [parties] using hwatchful.oneKind hcapacity
    | heldUp _ _ => simpa [parties, enqueue] using hline
    | emptied _ outlook took => exact (took (outlook.blocked_iterates hask).1).elim

/-- Of those whom a met party leaves, none that waits is of its kind, so it was the first of
them. -/
theorem filterMap_of_met {α : Type} {pick : Party ι ε → Option α}
    (hready : t.ready = party :: rest) (hwaiting : ∀ other ∈ t.waiting, pick other = none) :
    t.parties.filterMap pick = (pick party).toList ++ (rest ++ t.waiting).filterMap pick := by
  have hnone : t.waiting.filterMap pick = [] := List.filterMap_eq_nil_iff.mpr hwaiting
  rw [parties, hready, List.filterMap_append, List.filterMap_append, hnone, List.append_nil,
    List.nil_append, List.filterMap_cons]
  cases pick party <;> rfl

end Line

/-! ### What is kept in order -/

/-- The names of those whose sends returned, in the order in which they did. -/
def returned (t : Traffic ι ε) : List ι :=
  (t.finished.filter fun answer => answer.2.isSent).map Prod.fst

/-- The entries that were handed over, in order, with the names of those who got them. -/
def handedOver (t : Traffic ι ε) : List (ι × ε) :=
  t.finished.filterMap fun answer => answer.2.handed?.map fun entry => (answer.1, entry)

theorem map_snd_handedOver (t : Traffic ι ε) : t.handedOver.map Prod.snd = t.received := by
  rw [handedOver, received, List.map_filterMap]
  congr 1
  funext answer
  cases answer.2.handed? <;> rfl

/-- The sends that were met, then those that wait and are to look, are in the order in which they
were started; so are those who received, and those who wait and are to look. -/
structure Fair (capacity : Nat) (joined : List (Party ι ε)) (finals : List ε)
    (t : Traffic ι ε) : Prop where
  conserved : Conserved capacity t
  watchful : Watchful t
  iterated : Iterated t
  orderly : t.Orderly
  sent : ∃ admitted : List (ι × ε),
    (admitted ++ t.parties.filterMap Party.offer?).Sublist (joined.filterMap Party.offer?) ∧
      t.returned = admitted.map Prod.fst ∧ t.accepted = admitted.map Prod.snd ++ finals
  served : (t.handedOver.map Prod.fst ++ t.parties.filterMap Party.reader?).Sublist
    (joined.filterMap Party.reader?)
  /-- A last entry closes the stream. -/
  last : t.stream.closed = false → finals = []

section Fair

variable {capacity : Nat} {joined : List (Party ι ε)} {finals : List ε} {t t' : Traffic ι ε}
  {party : Party ι ε} {rest : List (Party ι ε)}

theorem returned_of_finished {id : ι} {reply : Reply ε}
    (hfinished : t'.finished = t.finished ++ [(id, reply)]) :
    t'.returned = t.returned ++ if reply.isSent then [id] else [] := by
  rw [returned, hfinished, List.filter_append, List.map_append, returned]
  cases hsent : reply.isSent <;> simp [hsent]

theorem handedOver_of_finished {id : ι} {reply : Reply ε}
    (hfinished : t'.finished = t.finished ++ [(id, reply)]) :
    t'.handedOver = t.handedOver ++ (reply.handed?.map fun entry => (id, entry)).toList := by
  rw [handedOver, hfinished, List.filterMap_append, handedOver]
  cases hentry : reply.handed? <;> simp [hentry]

/-- The look of a party whose send is not met keeps the order of the sends. -/
theorem Fair.sent_of_turn (h : Fair capacity joined finals t)
    (hparties : t'.parties.Sublist t.parties) (hreturned : t'.returned = t.returned)
    (haccepted : t'.accepted = t.accepted) :
    ∃ admitted : List (ι × ε),
      (admitted ++ t'.parties.filterMap Party.offer?).Sublist (joined.filterMap Party.offer?) ∧
        t'.returned = admitted.map Prod.fst ∧ t'.accepted = admitted.map Prod.snd ++ finals := by
  obtain ⟨admitted, horder, hreturned', haccepted'⟩ := h.sent
  refine ⟨admitted, ?_, hreturned.trans hreturned', haccepted.trans haccepted'⟩
  exact ((hparties.filterMap Party.offer?).append_left admitted).trans horder

/-- The look of a party that gets no entry keeps the order of those who receive. -/
theorem Fair.served_of_turn (h : Fair capacity joined finals t)
    (hparties : t'.parties.Sublist t.parties) (hhanded : t'.handedOver = t.handedOver) :
    (t'.handedOver.map Prod.fst ++ t'.parties.filterMap Party.reader?).Sublist
      (joined.filterMap Party.reader?) := by
  rw [hhanded]
  exact ((hparties.filterMap Party.reader?).append_left _).trans h.served

theorem Fair.sent_turn (h : Fair capacity joined finals t) (hready : t.ready = party :: rest)
    (hask : party.ask.iterates = true) (hturn : Turn t party rest t') :
    ∃ admitted : List (ι × ε),
      (admitted ++ t'.parties.filterMap Party.offer?).Sublist (joined.filterMap Party.offer?) ∧
        t'.returned = admitted.map Prod.fst ∧ t'.accepted = admitted.map Prod.snd ++ finals := by
  have hparties := parties_of_turn hready h.orderly h.watchful hask hturn
  cases hturn with
  | withdrawn _ =>
      apply h.sent_of_turn hparties _ rfl
      rw [returned_of_finished rfl]
      exact List.append_nil _
  | turnedDown _ outlook =>
      apply h.sent_of_turn hparties _ rfl
      rw [returned_of_finished rfl, outlook.turnedDown_isSent]
      exact List.append_nil _
  | heldUp _ _ => exact h.sent_of_turn hparties rfl rfl
  | emptied _ outlook took => exact (took (outlook.blocked_iterates hask).1).elim
  | @met stream reply new gone stayed outlook =>
      rcases outlook.met_isSent with ⟨entry, hsend, rfl, rfl, hopen⟩ | ⟨hreply, rfl⟩
      · -- no sender waits, so the one that is met was the first of all
        have hwaiting : ∀ other ∈ t.waiting, other.offer? = none := by
          intro other hother
          have hnot := (not_kind_of_met h.watchful outlook other hother).1 (by rw [hsend]; rfl)
          cases hoffer : other.offer? with
          | none => rfl
          | some offer => rw [Party.of_offer? hoffer] at hnot; cases hnot
        have hfirst : party.offer? = some (party.id, entry) := by
          obtain ⟨id, ask, withdrawn⟩ := party
          cases stayed
          cases hsend
          rfl
        obtain ⟨admitted, horder, hreturned, haccepted⟩ := h.sent
        rw [filterMap_of_met hready hwaiting, hfirst] at horder
        refine ⟨admitted ++ [(party.id, entry)], ?_, ?_, ?_⟩
        · rw [List.append_assoc]
          exact horder
        · rw [returned_of_finished rfl, hreturned, List.map_append]
          rfl
        · simp [haccepted, h.last hopen]
      · apply h.sent_of_turn hparties
        · rw [returned_of_finished rfl, hreply]
          exact List.append_nil _
        · exact List.append_nil _

theorem Fair.served_turn (h : Fair capacity joined finals t) (hready : t.ready = party :: rest)
    (hask : party.ask.iterates = true) (hturn : Turn t party rest t') :
    (t'.handedOver.map Prod.fst ++ t'.parties.filterMap Party.reader?).Sublist
      (joined.filterMap Party.reader?) := by
  have hparties := parties_of_turn hready h.orderly h.watchful hask hturn
  cases hturn with
  | withdrawn _ =>
      apply h.served_of_turn hparties
      rw [handedOver_of_finished rfl]
      exact List.append_nil _
  | turnedDown _ outlook =>
      apply h.served_of_turn hparties
      rw [handedOver_of_finished rfl, outlook.turnedDown_handed?]
      exact List.append_nil _
  | heldUp _ _ => exact h.served_of_turn hparties rfl
  | emptied _ outlook took => exact (took (outlook.blocked_iterates hask).1).elim
  | @met stream reply new gone stayed outlook =>
      rcases outlook.met_isReceived with ⟨entry, hreceive, rfl⟩ | hreply
      · -- nobody waits to receive, so the one that is met was the first of all
        have hwaiting : ∀ other ∈ t.waiting, other.reader? = none := by
          intro other hother
          have hnot := (not_kind_of_met h.watchful outlook other hother).2 (by rw [hreceive]; rfl)
          cases hreader : other.reader? with
          | none => rfl
          | some id => rw [Party.of_reader? hreader] at hnot; cases hnot
        have hfirst : party.reader? = some party.id := by
          obtain ⟨id, ask, withdrawn⟩ := party
          cases stayed
          cases hreceive
          rfl
        have horder := h.served
        rw [filterMap_of_met hready hwaiting, hfirst] at horder
        rw [handedOver_of_finished rfl, List.map_append, List.append_assoc]
        exact horder
      · apply h.served_of_turn hparties
        rw [handedOver_of_finished rfl, hreply]
        exact List.append_nil _

/-- A closed stream is not opened again by a look. -/
theorem unclosed_of_serveAt {position : Nat}
    (hopen : (t.serveAt position).stream.closed = false) : t.stream.closed = false := by
  cases hparty : t.ready[position]? with
  | none => rwa [serveAt_of_none hparty] at hopen
  | some party =>
      obtain ⟨others, _, hserved⟩ := serveAt_served hparty
      by_contra hclosed
      rw [(hserved.of_closed (by simpa using hclosed)).1] at hopen
      exact hclosed hopen

theorem Fair.look (hcapacity : 1 ≤ capacity) (h : Fair capacity joined finals t) :
    Fair capacity joined finals (t.serveAt 0) := by
  cases hready : t.ready with
  | nil =>
      have hnobody : t.ready[0]? = none := by rw [hready]; rfl
      rwa [serveAt_of_none hnobody]
  | cons party rest =>
      have hturn := turn hready
      have hconserved := h.conserved.serveAt 0
      have hwatchful := h.watchful.serveAt 0
      have hask : party.ask.iterates = true := by
        apply h.iterated.iterates party
        simp [parties, hready]
      refine ⟨hconserved, hwatchful, h.iterated.serveAt 0, ?_, h.sent_turn hready hask hturn,
        h.served_turn hready hask hturn, ?_⟩
      · apply h.orderly.turn hready h.watchful hwatchful _ _ hask hturn
        · rw [h.conserved.holds]
          exact hcapacity
        · rw [hconserved.holds]
          exact hcapacity
      · exact fun hopen => h.last (unclosed_of_serveAt hopen)

theorem Fair.settle (hcapacity : 1 ≤ capacity) (h : Fair capacity joined finals t) :
    Fair capacity joined finals t.settle :=
  settle_keeps (motive := Fair capacity joined finals) (fun _ h => h.look hcapacity) h

end Fair

/-! ### Between two looks -/

section FairStep

variable {capacity : Nat} {joined : List (Party ι ε)} {finals : List ε} {t : Traffic ι ε}

/-- Between two rounds all who are on the stream wait, and are of one kind. -/
theorem Fair.oneKind (hcapacity : 1 ≤ capacity) (h : Fair capacity joined finals t)
    (hready : t.ready = []) : OneKind t.parties := by
  rw [parties, hready, List.append_nil]
  apply h.watchful.oneKind
  rw [h.conserved.holds]
  exact hcapacity

/-- A step in which nobody comes and nobody is answered keeps the order of those who stay. -/
theorem Fair.of_finished {t' : Traffic ι ε} {new : List ε} (h : Fair capacity joined finals t)
    (hconserved : Conserved capacity t') (hwatchful : Watchful t') (hiterated : Iterated t')
    (horderly : t'.Orderly)
    (hoffers : (t'.parties.filterMap Party.offer?).Sublist (t.parties.filterMap Party.offer?))
    (hreaders : (t'.parties.filterMap Party.reader?).Sublist (t.parties.filterMap Party.reader?))
    (hfinished : t'.finished = t.finished) (haccepted : t'.accepted = t.accepted ++ new)
    (hlast : t'.stream.closed = false → finals ++ new = []) :
    Fair capacity joined (finals ++ new) t' where
  conserved := hconserved
  watchful := hwatchful
  iterated := hiterated
  orderly := horderly
  sent := by
    obtain ⟨admitted, horder, hreturned, haccepted'⟩ := h.sent
    refine ⟨admitted, (hoffers.append_left admitted).trans horder, ?_, ?_⟩
    · rw [returned, hfinished]
      exact hreturned
    · rw [haccepted, haccepted', List.append_assoc]
  served := by
    rw [handedOver, hfinished]
    exact (hreaders.append_left _).trans h.served
  last := hlast

/-- A party comes, and is the only one to look. -/
theorem Fair.start [BEq ι] (h : Fair capacity joined finals t) (hready : t.ready = []) {id : ι}
    {ask : Ask ε} (hask : ask.iterates = true) :
    Fair capacity (joined ++ [⟨id, ask, false⟩]) finals (t.start id ask) where
  conserved := h.conserved.step (.start id ask)
  watchful := h.watchful.step (.start id ask)
  iterated := h.iterated.step (.start id ask) fun _ _ hstart => by cases hstart; exact hask
  orderly := .inr ⟨⟨id, ask, false⟩, by rw [Traffic.start, hready]; rfl⟩
  sent := by
    obtain ⟨admitted, horder, hreturned, haccepted⟩ := h.sent
    refine ⟨admitted, ?_, hreturned, haccepted⟩
    rw [parties_start, List.filterMap_append, List.filterMap_append, ← List.append_assoc]
    exact horder.append (List.Sublist.refl _)
  served := by
    rw [parties_start, List.filterMap_append, List.filterMap_append, ← List.append_assoc]
    exact h.served.append (List.Sublist.refl _)
  last := h.last

/-- Who is withdrawn between two rounds leaves the line, and the others keep their order in it. -/
theorem filterMap_withdraw_sublist [BEq ι] {α : Type} {pick : Party ι ε → Option α}
    (hpick : ∀ party, party.withdrawn = true → pick party = none) (hready : t.ready = []) (id : ι) :
    ((t.withdraw id).parties.filterMap pick).Sublist (t.parties.filterMap pick) := by
  have hparties : (t.withdraw id).parties =
      (t.waiting.filter fun party => !(party.id == id)) ++
        (t.waiting.filter fun party => party.id == id).map fun party =>
          { party with withdrawn := true } := by
    rw [withdraw_of_nil hready]
    rfl
  have hbefore : t.parties = t.waiting := by rw [parties, hready, List.append_nil]
  have hnone : ((t.waiting.filter fun party => party.id == id).map fun party =>
      { party with withdrawn := true }).filterMap pick = [] := by
    apply List.filterMap_eq_nil_iff.mpr
    intro party hparty
    obtain ⟨original, _, rfl⟩ := List.mem_map.mp hparty
    exact hpick _ rfl
  rw [hparties, hbefore, List.filterMap_append, hnone, List.append_nil]
  exact List.filter_sublist.filterMap pick

theorem Fair.withdraw [BEq ι] (hcapacity : 1 ≤ capacity) (h : Fair capacity joined finals t)
    (hready : t.ready = []) (id : ι) : Fair capacity joined finals (t.withdraw id) := by
  have horderly : (t.withdraw id).Orderly := by
    left
    apply (h.oneKind hcapacity hready).subset
    intro party hparty
    obtain ⟨original, horiginal, rfl⟩ :=
      List.mem_map.mp ((parties_withdraw t id).mem_iff.mp hparty)
    refine ⟨original, horiginal, ?_⟩
    split_ifs <;> rfl
  have hnobody : ∀ other ask, Step.withdraw id = (.start other ask : Step ι ε) →
      ask.iterates = true := by
    intro other ask hstart
    cases hstart
  rw [← List.append_nil finals]
  refine h.of_finished (h.conserved.step (.withdraw id)) (h.watchful.step (.withdraw id))
    (h.iterated.step (.withdraw id) hnobody) horderly ?_ ?_ rfl (List.append_nil _).symm ?_
  -- who was withdrawn neither offers an entry nor wants one
  · exact filterMap_withdraw_sublist (fun _ => Party.offer?_of_withdrawn) hready id
  · exact filterMap_withdraw_sublist (fun _ => Party.reader?_of_withdrawn) hready id
  · rw [List.append_nil]
    exact h.last

/-- Once everybody has looked, waking them keeps the order in which they wait. -/
theorem parties_wake_of_nil (hready : t.ready = []) : t.wake.parties = t.parties := by
  simp [parties, wake, hready]

/-- A closing call that goes through keeps the order in which the others wait, and wakes them. -/
theorem Fair.shut (hcapacity : 1 ≤ capacity) (h : Fair capacity joined finals t)
    (hready : t.ready = []) {t' : Traffic ι ε} {new : List ε} (hconserved : Conserved capacity t')
    (hwatchful : Watchful t') (hiterated : Iterated t') (hparties : t'.parties = t.parties)
    (hfinished : t'.finished = t.finished) (haccepted : t'.accepted = t.accepted ++ new)
    (hclosed : t'.stream.closed = true) : Fair capacity joined (finals ++ new) t' := by
  refine h.of_finished hconserved hwatchful hiterated (.inl ?_) ?_ ?_ hfinished haccepted ?_
  · rw [hparties]
    exact h.oneKind hcapacity hready
  · rw [hparties]
  · rw [hparties]
  · intro hopen
    cases hclosed.symm.trans hopen

end FairStep

/-! ### Rounds -/

section Rounds

variable [BEq ι] {capacity : Nat} {joined : List (Party ι ε)} {finals : List ε} {t : Traffic ι ε}

/-- The entry that a step puts on the stream by closing it, unless the call is turned down. -/
def finale (t : Traffic ι ε) : Step ι ε → List ε
  | .sendFinal entry =>
      match t.sendFinal entry with
      | .ok _ => [entry]
      | .error _ => []
  | _ => []

/-- The last entries that some rounds put on the stream. -/
def finales (t : Traffic ι ε) : List (Step ι ε) → List ε
  | [] => []
  | s :: steps => t.finale s ++ finales (t.round s) steps

theorem Fair.step (hcapacity : 1 ≤ capacity) (h : Fair capacity joined finals t)
    (hready : t.ready = []) (s : Step ι ε)
    (hplain : ∀ id ask, s = .start id ask → ask.iterates = true) :
    Fair capacity (joined ++ s.comes) (finals ++ t.finale s) (t.step s) := by
  have hconserved := h.conserved.step s
  have hwatchful := h.watchful.step s
  have hiterated := h.iterated.step s hplain
  cases s with
  | start id ask =>
      simp only [finale, List.append_nil]
      exact h.start hready (hplain id ask rfl)
  | serve position =>
      have hnobody : t.ready[position]? = none := by rw [hready]; rfl
      simp only [finale, Step.comes, List.append_nil, Traffic.step, serveAt_of_none hnobody]
      exact h
  | withdraw id =>
      simp only [finale, Step.comes, List.append_nil]
      exact h.withdraw hcapacity hready id
  | close =>
      simp only [finale, Step.comes, List.append_nil]
      cases hclosed : t.stream.closed with
      | true => simpa only [Traffic.step, closeNow_of_closed hclosed] using h
      | false =>
          rw [← List.append_nil finals]
          simp only [Traffic.step, closeNow_of_unclosed hclosed] at hconserved hwatchful hiterated
          simp only [Traffic.step, closeNow_of_unclosed hclosed]
          exact h.shut hcapacity hready hconserved hwatchful hiterated (parties_wake_of_nil hready)
            rfl (List.append_nil _).symm rfl
  | sendFinal entry =>
      simp only [Step.comes, List.append_nil]
      cases hclosed : t.stream.closed with
      | true =>
          simpa only [finale, Traffic.step, sendFinal_of_closed hclosed, List.append_nil] using h
      | false =>
          simp only [Traffic.step, sendFinal_of_unclosed hclosed] at hconserved hwatchful hiterated
          simp only [finale, Traffic.step, sendFinal_of_unclosed hclosed]
          exact h.shut hcapacity hready hconserved hwatchful hiterated (parties_wake_of_nil hready)
            rfl rfl rfl

theorem Fair.rounds (hcapacity : 1 ≤ capacity) (h : Fair capacity joined finals t)
    (hready : t.ready = []) (steps : List (Step ι ε))
    (hplain : ∀ id ask, .start id ask ∈ steps → ask.iterates = true) :
    Fair capacity (joined ++ newcomers steps) (finals ++ t.finales steps) (t.rounds steps) := by
  induction steps generalizing t joined finals with
  | nil => simpa [newcomers, finales] using h
  | cons s steps ih =>
      have hfirst : ∀ id ask, s = .start id ask → ask.iterates = true := fun id ask hs =>
        hplain id ask (hs ▸ List.mem_cons_self)
      have hround : Fair capacity (joined ++ s.comes) (finals ++ t.finale s) (t.round s) :=
        (h.step hcapacity hready s hfirst).settle hcapacity
      have hlater := ih hround (ready_round t s)
        fun id ask hask => hplain id ask (List.mem_cons_of_mem _ hask)
      rw [List.append_assoc, List.append_assoc] at hlater
      exact hlater

end Rounds

/-! ### Who came first was served first -/

section Served

variable [BEq ι] {t : Traffic ι ε} {id : ι}

/-- The send of a party was met. -/
def wasSent (t : Traffic ι ε) (id : ι) : Bool := (t.replyTo? id).any Reply.isSent

/-- The entry that a party received, if it did. -/
def entryOf? (t : Traffic ι ε) (id : ι) : Option ε := (t.replyTo? id).bind Reply.handed?

/-- What became of the sends and of those who wanted to receive, all of them listed in the order in
which they were started. -/
structure InTurn (t : Traffic ι ε) (offers : List (ι × ε)) (readers : List ι)
    (finals : List ε) : Prop where
  /-- The stream accepted the entries of the sends that were met, and then the last one. -/
  accepted : t.accepted = (offers.filter fun offer => t.wasSent offer.1).map Prod.snd ++ finals
  /-- The sends returned in that order, too. -/
  returned : t.returned = (offers.filter fun offer => t.wasSent offer.1).map Prod.fst
  /-- Those who received got the accepted entries, from the first on. -/
  received : readers.filterMap t.entryOf? <+: t.accepted
  /-- They got them in that order, too. -/
  handedOver : t.handedOver.map Prod.fst = readers.filter fun id => (t.entryOf? id).isSome

variable [LawfulBEq ι]

/-- Who was answered once can be asked about. -/
theorem replyTo?_eq_some_iff (honce : (t.finished.map Prod.fst).Nodup) {reply : Reply ε} :
    t.replyTo? id = some reply ↔ (id, reply) ∈ t.finished := by
  rw [replyTo?, Option.map_eq_some_iff]
  constructor
  · rintro ⟨⟨other, reply'⟩, hfind, rfl⟩
    obtain rfl : other = id := by simpa using List.find?_some hfind
    exact List.mem_of_find?_eq_some hfind
  · intro hanswer
    have hsome : (t.finished.find? fun answer => answer.1 == id).isSome = true := by
      rw [List.find?_isSome]
      exact ⟨_, hanswer, beq_self_eq_true id⟩
    obtain ⟨answer, hfind⟩ := Option.isSome_iff_exists.mp hsome
    have hid : answer.1 = id := by simpa using List.find?_some hfind
    have hsame := List.inj_on_of_nodup_map honce (List.mem_of_find?_eq_some hfind) hanswer hid
    exact ⟨answer, hfind, by rw [hsame]⟩

theorem wasSent_iff (honce : (t.finished.map Prod.fst).Nodup) :
    t.wasSent id = true ↔ id ∈ t.returned := by
  simp only [wasSent, Option.any_eq_true, replyTo?_eq_some_iff honce, Traffic.returned, List.mem_map,
    List.mem_filter]
  constructor
  · rintro ⟨reply, hanswer, hsent⟩
    exact ⟨(id, reply), ⟨hanswer, hsent⟩, rfl⟩
  · rintro ⟨⟨_, reply⟩, ⟨hanswer, hsent⟩, rfl⟩
    exact ⟨reply, hanswer, hsent⟩

theorem entryOf?_eq_some_iff (honce : (t.finished.map Prod.fst).Nodup) (id : ι) (entry : ε) :
    t.entryOf? id = some entry ↔ (id, entry) ∈ t.handedOver := by
  simp only [entryOf?, Option.bind_eq_some_iff, replyTo?_eq_some_iff honce, Traffic.handedOver,
    List.mem_filterMap, Option.map_eq_some_iff]
  constructor
  · rintro ⟨reply, hanswer, hhanded⟩
    exact ⟨(id, reply), hanswer, entry, hhanded, rfl⟩
  · rintro ⟨⟨_, reply⟩, hanswer, _, hhanded, hsame⟩
    cases hsame
    exact ⟨reply, hanswer, hhanded⟩

end Served

/-- At first nobody is on the stream, and nothing has happened. -/
theorem fair_onto (capacity : Nat) :
    Fair capacity [] [] (onto ⟨capacity, [], false⟩ : Traffic ι ε) where
  conserved := ⟨rfl, rfl, by constructor <;> simp [onto]⟩
  watchful := fun _ hparty => absurd hparty List.not_mem_nil
  iterated := ⟨fun _ hparty => absurd hparty List.not_mem_nil, rfl⟩
  orderly := .inl (.inl fun _ hparty => absurd hparty List.not_mem_nil)
  sent := ⟨[], List.Sublist.refl _, rfl, rfl⟩
  served := List.Sublist.refl _
  last := fun _ => rfl

variable [BEq ι] [LawfulBEq ι]

/-- Where the order is kept and everybody has a name of their own, the answers of the parties, asked
for in the order in which they came, are what was accepted and handed over. -/
theorem Fair.inTurn {capacity : Nat} {joined : List (Party ι ε)} {finals : List ε}
    {t : Traffic ι ε} (h : Fair capacity joined finals t) (haccounted : t.Accounted joined)
    (hids : (joined.map Party.id).Nodup) :
    InTurn t (joined.filterMap Party.offer?) (joined.filterMap Party.reader?) finals := by
  have honce : (t.finished.map Prod.fst).Nodup :=
    (List.nodup_append.mp (haccounted.nodup_iff.mpr hids)).1
  -- the sends
  obtain ⟨admitted, horder, hreturned, haccepted⟩ := h.sent
  have hoffers : ((joined.filterMap Party.offer?).map Prod.fst).Nodup := by
    refine hids.sublist (map_filterMap_sublist ?_ _)
    intro party offer hoffer
    rw [Party.of_offer? hoffer]
  have hadmitted : ((joined.filterMap Party.offer?).filter fun offer => t.wasSent offer.1) =
      admitted := by
    have hsublist := (List.sublist_append_left _ _).trans horder
    apply filter_eq_of_sublist hsublist (hoffers.of_map _)
    intro offer hoffer
    rw [wasSent_iff honce, hreturned, List.mem_map]
    constructor
    · rintro ⟨other, hother, hsame⟩
      rwa [← List.inj_on_of_nodup_map hoffers (hsublist.subset hother) hoffer hsame]
    · exact fun hmem => ⟨offer, hmem, rfl⟩
  -- those who receive
  have hreaders : (joined.filterMap Party.reader?).Nodup := by
    rw [← List.map_id (joined.filterMap Party.reader?)]
    refine hids.sublist (map_filterMap_sublist ?_ _)
    intro party id hreader
    rw [Party.of_reader? hreader]
    rfl
  obtain ⟨hserved, hentries⟩ := filterMap_eq_of_sublist
    ((List.sublist_append_left _ _).trans h.served) hreaders (entryOf?_eq_some_iff honce)
  refine ⟨?_, ?_, ?_, hserved.symm⟩
  · rw [hadmitted, haccepted]
  · rw [hadmitted, hreturned]
  · rw [hentries, map_snd_handedOver, h.iterated.received, ← h.conserved.entries]
    exact List.prefix_append _ _

/-- On a stream of any capacity, in whatever rounds parties come that send or receive one entry or
close the stream, are withdrawn, and the stream is closed: the sends are accepted in the order in
which they were started, and so are the entries handed out to those who receive. -/
theorem first_come_first_served {capacity : Int} {stream : Stream ε}
    (hstream : Stream.create capacity = .ok stream) (steps : List (Step ι ε))
    (hids : ((newcomers steps).map Party.id).Nodup)
    (hplain : ∀ party ∈ newcomers steps, party.ask.iterates = true) :
    InTurn ((onto stream).rounds steps) ((newcomers steps).filterMap Party.offer?)
      ((newcomers steps).filterMap Party.reader?) ((onto stream).finales steps) := by
  obtain ⟨rfl, hcapacity⟩ := create_eq_ok hstream
  have hfair := (fair_onto capacity.toNat).rounds (by omega) rfl steps fun id ask hstart =>
    hplain _ (mem_newcomers_of_start hstart)
  rw [List.nil_append, List.nil_append] at hfair
  exact hfair.inTurn (accounted_onto _ steps) hids

/-- Four senders come while there is room for one entry, and one of them is withdrawn; then more
want to receive than there are entries, until a last one closes the stream. -/
theorem first_come_first_served_when_crowded :
    ∃ steps : List (Step Nat Nat), Stream.create 1 = .ok (⟨1, [], false⟩ : Stream Nat) ∧
      ((newcomers steps).map Party.id).Nodup ∧
      (∀ party ∈ newcomers steps, party.ask.iterates = true) ∧
      ((onto ⟨1, [], false⟩ : Traffic Nat Nat).rounds steps).accepted = [10, 20, 40, 50, 60] ∧
      InTurn ((onto ⟨1, [], false⟩ : Traffic Nat Nat).rounds steps)
        [(0, 10), (1, 20), (2, 30), (3, 40), (9, 50)] [4, 5, 6, 7, 8] [60] := by
  let steps : List (Step Nat Nat) := [.start 0 (.send 10), .start 1 (.send 20),
    .start 2 (.send 30), .start 3 (.send 40), .withdraw 2, .start 4 .receive, .start 5 .receive,
    .start 6 .receive, .start 7 .receive, .start 8 .receive, .start 9 (.send 50), .sendFinal 60]
  have hstream : Stream.create 1 = .ok (⟨1, [], false⟩ : Stream Nat) := rfl
  have hids : ((newcomers steps).map Party.id).Nodup := by decide
  have hplain : ∀ party ∈ newcomers steps, party.ask.iterates = true := by decide
  have hserved := first_come_first_served hstream steps hids hplain
  have hlast : (onto ⟨1, [], false⟩ : Traffic Nat Nat).finales steps = [60] := by cbv
  rw [hlast] at hserved
  exact ⟨steps, hstream, hids, hplain, by cbv, hserved⟩

end Traffic

end Vigil.Stream
