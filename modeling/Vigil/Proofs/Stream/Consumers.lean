import Vigil.Proofs.Stream.Producers
import Vigil.Proofs.Stream.Withdrawal

/-!
# One consumer, three ways

A stream with a single consumer can be collected, or reduced to its newest entry, or read entry by
entry until it ends.  The producers cannot tell which: in whatever order everybody looks, the three
consumers take the same entries at the same looks.  A reader does so because it asks for the next
entry before anybody else looks, and so empties the stream at one go like who collects.
-/

namespace Vigil.Stream

variable {ι ε : Type}

/-- Who collects, as one who asks for one entry. -/
def Ask.single : Ask ε → Ask ε
  | .collect _ => .receive
  | ask => ask

theorem single_of_producer {ask : Ask ε} (hask : ask.receives = false) : ask.single = ask := by
  cases ask with
  | collect taken => cases hask
  | _ => rfl

theorem look_single (s : Stream ε) {ask : Ask ε} (hask : ask.receives = false) :
    look s ask.single = (look s ask).recast Ask.single id := by
  cases ask with
  | send entry =>
      simp only [Ask.single, look]
      split_ifs <;> rfl
  | close =>
      simp only [Ask.single, look]
      split_ifs <;> rfl
  | receive => cases hask
  | collect taken => cases hask
  | last newest => cases hask

namespace Traffic

/-! ### Reading entry by entry -/

/-- A reader that gets an entry asks for the next one before anybody else looks, and so takes all
that is there. -/
def readOut (c : ι) (t : Traffic ι ε) : Traffic ι ε :=
  match _hbuffer : t.stream.buffer with
  | [] => t.serve ⟨c, .receive, false⟩
  | _ :: _ => readOut c (t.serve ⟨c, .receive, false⟩)
termination_by t.stream.buffer.length
decreasing_by simp [serve, look, _hbuffer, wake, finish]

/-- What is left on the stream is taken, and whoever waited is woken if there was anything. -/
def takeAll (c : ι) (t : Traffic ι ε) : Traffic ι ε :=
  let woken := if t.stream.buffer.isEmpty then t else t.wake
  { woken with
    stream := { t.stream with buffer := [] }
    finished := t.finished ++ t.stream.buffer.map fun entry => (c, .received entry)
    taken := t.taken ++ t.stream.buffer }

theorem readOut_of_nil {c : ι} {t : Traffic ι ε} (hbuffer : t.stream.buffer = []) :
    t.readOut c = t.serve ⟨c, .receive, false⟩ := by
  rw [readOut]
  split
  · rfl
  · rename_i h
    rw [hbuffer] at h
    cases h

theorem readOut_of_cons {c : ι} {t : Traffic ι ε} {entry : ε} {rest : List ε}
    (hbuffer : t.stream.buffer = entry :: rest) :
    t.readOut c = (t.serve ⟨c, .receive, false⟩).readOut c := by
  rw [readOut]
  split
  · rename_i h
    rw [hbuffer] at h
    cases h
  · rfl

/-- After everything is taken, the reader looks once more. -/
theorem readOut_eq (c : ι) (t : Traffic ι ε) :
    t.readOut c = (t.takeAll c).serve ⟨c, .receive, false⟩ := by
  generalize hbuffer : t.stream.buffer = buffer
  induction buffer generalizing t with
  | nil =>
      have hsame : t.takeAll c = t := by
        obtain ⟨⟨capacity, buffer, closed⟩, _⟩ := t
        cases hbuffer
        simp [takeAll]
      rw [readOut_of_nil hbuffer, hsame]
  | cons entry rest ih =>
      have hserve : t.serve ⟨c, .receive, false⟩ =
          ({ t with stream := { t.stream with buffer := rest }, taken := t.taken ++ [entry] }.wake
            ).finish c (.received entry) := by
        simp [serve, look, hbuffer]
      have hall : (t.serve ⟨c, .receive, false⟩).takeAll c = t.takeAll c := by
        rw [hserve]
        cases rest <;> simp [takeAll, hbuffer, wake, finish]
      rw [readOut_of_cons hbuffer, ih _ (by rw [hserve]; rfl), hall]

section Steps

variable [BEq ι]

/-- Lets the party at a position look; if it is the reader, it goes on reading. -/
def readAt (c : ι) (t : Traffic ι ε) (position : Nat) : Traffic ι ε :=
  match t.ready[position]? with
  | none => t
  | some party =>
      if party.id == c then { t with ready := t.ready.eraseIdx position }.readOut c
      else t.serveAt position

/-- A step with a reader on the stream. -/
def readStep (c : ι) (t : Traffic ι ε) : Step ι ε → Traffic ι ε
  | .serve position => t.readAt c position
  | s => t.step s

def readAll (c : ι) (t : Traffic ι ε) (steps : List (Step ι ε)) : Traffic ι ε :=
  steps.foldl (readStep c) t

end Steps

/-! ### What the consumer was told before -/

section Hush

variable [BEq ι] {c : ι}

/-- The state apart from what the consumer was told. -/
def hush (c : ι) (t : Traffic ι ε) : Traffic ι ε :=
  { t with finished := t.finished.filter fun answer => !(answer.1 == c) }

@[simp]
theorem hush_hush (t : Traffic ι ε) : (t.hush c).hush c = t.hush c := by
  simp [hush, List.filter_filter]

theorem hush_wake (t : Traffic ι ε) : t.wake.hush c = (t.hush c).wake := rfl

/-- What comes of a look does not depend on what the consumer was told before. -/
theorem hush_serve (t : Traffic ι ε) (party : Party ι ε) :
    (t.serve party).hush c = ((t.hush c).serve party).hush c := by
  have hstream : (t.hush c).stream = t.stream := rfl
  rw [serve, serve, hstream]
  split_ifs
  · simp [hush, finish, List.filter_filter]
  · cases look t.stream party.ask with
    | met stream reply accepted taken => simp [hush, wake, finish, List.filter_filter]
    | turnedDown reply => simp [hush, finish, List.filter_filter]
    | blocked stream ask taken =>
        cases taken <;> simp [hush, wake, enqueue, List.filter_filter]

theorem hush_serveAt (t : Traffic ι ε) (position : Nat) :
    (t.serveAt position).hush c = ((t.hush c).serveAt position).hush c := by
  have hready : (t.hush c).ready = t.ready := rfl
  rw [serveAt, serveAt, hready]
  cases t.ready[position]? with
  | none => rw [hush_hush]
  | some party => exact hush_serve { t with ready := t.ready.eraseIdx position } party

theorem hush_takeAll (t : Traffic ι ε) :
    (t.takeAll c).hush c = ((t.hush c).takeAll c).hush c := by
  cases hbuffer : t.stream.buffer <;>
    simp [takeAll, hush, hbuffer, wake, List.filter_append, List.filter_filter]

theorem hush_readOut (t : Traffic ι ε) :
    (t.readOut c).hush c = ((t.hush c).readOut c).hush c := by
  rw [readOut_eq, readOut_eq, hush_serve, hush_serve ((t.hush c).takeAll c), hush_takeAll]

theorem hush_close (t : Traffic ι ε) : (t.step .close).hush c = (t.hush c).step .close := by
  have hsame : (t.hush c).stream.closed = t.stream.closed := rfl
  cases hclosed : t.stream.closed with
  | true => simp only [step, closeNow_of_closed hclosed, closeNow_of_closed (hsame.trans hclosed)]
  | false =>
      simp only [step, closeNow_of_unclosed hclosed, closeNow_of_unclosed (hsame.trans hclosed),
        hush_wake]
      rfl

theorem hush_sendFinal (t : Traffic ι ε) (entry : ε) :
    (t.step (.sendFinal entry)).hush c = (t.hush c).step (.sendFinal entry) := by
  have hsame : (t.hush c).stream.closed = t.stream.closed := rfl
  cases hclosed : t.stream.closed with
  | true =>
      simp only [step, sendFinal_of_closed hclosed, sendFinal_of_closed (hsame.trans hclosed)]
  | false =>
      simp only [step, sendFinal_of_unclosed hclosed, sendFinal_of_unclosed (hsame.trans hclosed),
        hush_wake]
      rfl

end Hush

/-! ### Who collects -/

section Collecting

variable [BEq ι] {c : ι} {came : Bool} {t t' : Traffic ι ε}

/-- A consumer that collects has not come yet, is on the stream, or was told the end. -/
inductive Collecting (c : ι) (t : Traffic ι ε) : Bool → Prop
  | ahead (absent : (t.parties.filter fun party => party.id == c) = [])
      (untold : t.repliesTo c = []) (untouched : t.taken = []) : Collecting c t false
  | underway
      (asks : (t.parties.filter fun party => party.id == c) = [⟨c, .collect t.taken, false⟩])
      (unanswered : t.repliesTo c = []) : Collecting c t true
  | through (gone : (t.parties.filter fun party => party.id == c) = [])
      (told : t.repliesTo c = [.collected t.taken]) (closed : t.stream.closed = true)
      (empty : t.stream.buffer = []) : Collecting c t true

namespace Collecting

theorem letAlone (h : Collecting c t came) (halone : LetAlone c t t') : Collecting c t' came := by
  obtain ⟨hparties, htold, htaken, hspent⟩ := halone
  cases h with
  | ahead absent untold untouched =>
      rw [absent] at hparties
      exact .ahead (List.perm_nil.mp hparties) (htold.trans untold) (htaken.trans untouched)
  | underway asks unanswered =>
      rw [asks] at hparties
      exact .underway (htaken ▸ List.perm_singleton.mp hparties) (htold.trans unanswered)
  | through gone told closed empty =>
      rw [gone] at hparties
      obtain ⟨hclosed, hempty⟩ := hspent closed empty
      exact .through (List.perm_nil.mp hparties) (by rw [htold, told, htaken]) hclosed hempty

/-- The only request of the consumer is to collect, and it has not been answered. -/
theorem eq_of_ready (h : Collecting c t came) {position : Nat} {party : Party ι ε}
    (hparty : t.ready[position]? = some party) (hid : (party.id == c) = true) :
    came = true ∧ party = ⟨c, .collect t.taken, false⟩ ∧ t.repliesTo c = [] := by
  have hmem : party ∈ t.parties.filter fun party => party.id == c :=
    List.mem_filter.mpr ⟨List.mem_append_right _ (List.mem_of_getElem? hparty), hid⟩
  cases h with
  | ahead absent _ _ =>
      rw [absent] at hmem
      cases hmem
  | through gone _ _ _ =>
      rw [gone] at hmem
      cases hmem
  | underway asks unanswered =>
      rw [asks] at hmem
      exact ⟨rfl, List.mem_singleton.mp hmem, unanswered⟩

/-- The consumer looks. -/
theorem serveAt_of_collect [LawfulBEq ι] (h : Collecting c t true) {position : Nat}
    (hparty : t.ready[position]? = some ⟨c, .collect t.taken, false⟩)
    (hunanswered : t.repliesTo c = []) : Collecting c (t.serveAt position) true := by
  obtain ⟨others, hparties, hserved⟩ := serveAt_served hparty
  have hgone : (others.filter fun party => party.id == c) = [] := by
    have hfiltered := hparties.filter fun party => party.id == c
    rw [List.filter_cons_of_pos (by simp)] at hfiltered
    cases h with
    | underway asks _ =>
        rw [asks] at hfiltered
        exact (List.cons.inj (List.singleton_perm.mp hfiltered)).2.symm
    | through gone _ _ _ =>
        rw [gone] at hfiltered
        cases List.nil_perm.mp hfiltered
  cases hserved with
  | withdrawn left _ _ _ _ _ => cases left
  | turnedDown _ outlook _ _ _ _ _ => cases outlook
  | met _ outlook those finished stream _ taken =>
      cases outlook with
      | collected closed =>
          have hfiltered := those.filter fun party => party.id == c
          rw [hgone] at hfiltered
          refine .through (List.perm_nil.mp hfiltered) ?_ (stream ▸ closed) (by rw [stream])
          rw [repliesTo_of_finished c finished, hunanswered, taken]
          simp
  | blocked _ outlook those finished stream _ taken =>
      cases outlook with
      | collectBlocked unclosed =>
          have hfiltered := those.filter fun party => party.id == c
          rw [List.filter_cons_of_pos (by simp), hgone] at hfiltered
          refine .underway ?_ (by rw [repliesTo, finished]; exact hunanswered)
          rw [taken]
          exact List.perm_singleton.mp hfiltered

end Collecting

/-- A consumer that collects, among producers. -/
structure Gathering (c : ι) (came : Bool) (t : Traffic ι ε) : Prop where
  produced : Produced c t
  own : Collecting c t came

namespace Gathering

theorem onto (stream : Stream ε) : Gathering c false (onto stream : Traffic ι ε) :=
  ⟨.onto stream, .ahead rfl rfl rfl⟩

theorem serveAt [LawfulBEq ι] (h : Gathering c came t) (position : Nat) :
    Gathering c came (t.serveAt position) := by
  refine ⟨h.produced.serveAt position, ?_⟩
  cases hparty : t.ready[position]? with
  | none =>
      rw [serveAt_of_none hparty]
      exact h.own
  | some party =>
      cases hid : party.id == c with
      | true =>
          obtain ⟨rfl, rfl, hunanswered⟩ := h.own.eq_of_ready hparty hid
          exact h.own.serveAt_of_collect hparty hunanswered
      | false =>
          have hmem : party ∈ t.parties := List.mem_append_right _ (List.mem_of_getElem? hparty)
          exact h.own.letAlone (letAlone_serveAt hparty hid (h.produced.asks party hmem hid))

theorem step [LawfulBEq ι] (h : Gathering c came t) {s : Step ι ε} (hs : s.produces c = true) :
    Gathering c came (t.step s) := by
  cases s with
  | serve position => exact h.serveAt position
  | _ => exact ⟨h.produced.step hs, h.own.letAlone (letAlone_step hs (by simp))⟩

theorem stepAll [LawfulBEq ι] (h : Gathering c came t) {steps : List (Step ι ε)}
    (hsteps : ∀ s ∈ steps, s.produces c = true) : Gathering c came (t.stepAll steps) := by
  induction steps generalizing t with
  | nil => exact h
  | cons s steps ih =>
      exact ih (h.step (hsteps s List.mem_cons_self))
        fun s' hs' => hsteps s' (List.mem_cons_of_mem _ hs')

/-- The consumer comes. -/
theorem arrive [LawfulBEq ι] (h : Gathering c false t) :
    Gathering c true (t.start c (.collect [])) := by
  refine ⟨h.produced.start (by simp), ?_⟩
  cases h.own with
  | ahead absent untold untouched =>
      refine .underway ?_ untold
      have htaken : (t.start c (.collect [])).taken = [] := untouched
      rw [parties_start, List.filter_append, absent, htaken]
      simp

theorem replyTo?_of_some {capacity : Nat} (h : Gathering c true t)
    (hconserved : Conserved capacity t) {reply : Reply ε} (hreply : t.replyTo? c = some reply) :
    reply = .collected t.accepted ∧ t.stream.closed = true ∧ t.stream.buffer = [] := by
  rw [replyTo?_eq_head?] at hreply
  cases h.own with
  | underway _ unanswered =>
      rw [unanswered] at hreply
      cases hreply
  | through _ told closed empty =>
      rw [told] at hreply
      have hall : t.taken = t.accepted := by
        rw [← hconserved.entries, empty, List.append_nil]
      rw [← hall]
      exact ⟨(Option.some.inj hreply).symm, closed, empty⟩

/-- At rest, the consumer has taken everything, and is told the end of a closed stream. -/
theorem settled {capacity : Nat} (h : Gathering c true t)
    (hconserved : Conserved capacity t) (hwatchful : Watchful t) (hready : t.ready = []) :
    t.stream.buffer = [] ∧ t.taken = t.accepted ∧
      (t.replyTo? c).isSome = t.stream.closed := by
  have hall (hempty : t.stream.buffer = []) : t.taken = t.accepted := by
    rw [← hconserved.entries, hempty, List.append_nil]
  rw [replyTo?_eq_head?]
  cases h.own with
  | through _ told closed empty =>
      rw [told, closed]
      exact ⟨empty, hall empty, rfl⟩
  | underway asks unanswered =>
      have hmem : ⟨c, .collect t.taken, false⟩ ∈ t.waiting := by
        have hparty : ⟨c, .collect t.taken, false⟩ ∈
            t.parties.filter fun party => party.id == c := by
          rw [asks]
          exact List.mem_singleton_self _
        have hparties := (List.mem_filter.mp hparty).1
        rwa [parties, hready, List.append_nil] at hparties
      have hheld := hwatchful _ hmem
      rw [unanswered, hheld.unclosed]
      exact ⟨hheld.empty rfl, hall (hheld.empty rfl), rfl⟩

end Gathering

end Collecting

/-! ### Who reads -/

section Reading

variable [BEq ι] {c : ι} {t u : Traffic ι ε}

/-- The state as if who collects asked for one entry. -/
abbrev single (t : Traffic ι ε) : Traffic ι ε := t.recast Ask.single id

/-- A reader in the place of a consumer that collects: it got the entries that the other one took,
and knows the end when the other one does. -/
structure Alongside (c : ι) (t u : Traffic ι ε) : Prop where
  state : u.hush c = t.single.hush c
  told : u.repliesTo c = t.taken.map .received ++ (t.repliesTo c).map fun _ => .ended

theorem Alongside.stream (h : Alongside c t u) : u.stream = t.stream := by
  have hstate := congrArg Traffic.stream h.state
  exact hstate

/-- What a reader takes at once is what is taken by who collects. -/
theorem hush_readOut_single [LawfulBEq ι] (taken : List ε)
    (hwaiting : t.stream.closed = true → t.waiting = []) :
    (t.single.readOut c).hush c = (t.serve ⟨c, .collect taken, false⟩).single.hush c := by
  rw [readOut_eq]
  cases hclosed : t.stream.closed with
  | true =>
      cases hbuffer : t.stream.buffer <;>
        simp [takeAll, serve, look, single, recast, hush, wake, finish, hclosed, hbuffer,
          hwaiting hclosed]
  | false =>
      cases hbuffer : t.stream.buffer <;>
        simp [takeAll, serve, look, single, recast, hush, wake, enqueue, hclosed, hbuffer,
          Party.recast, Ask.single]

theorem repliesTo_readOut [LawfulBEq ι] (t : Traffic ι ε) :
    (t.readOut c).repliesTo c =
      t.repliesTo c ++ (t.stream.buffer.map .received ++
        if t.stream.closed then [.ended] else []) := by
  rw [readOut_eq]
  cases hclosed : t.stream.closed <;>
    simp [takeAll, serve, look, hclosed, repliesTo, finish, enqueue, List.filter_map,
      Function.comp_def]

/-- What who collects takes and is told at a look. -/
theorem serve_collect [LawfulBEq ι] (t : Traffic ι ε) (taken : List ε) :
    (t.serve ⟨c, .collect taken, false⟩).taken = t.taken ++ t.stream.buffer ∧
      (t.serve ⟨c, .collect taken, false⟩).repliesTo c =
        t.repliesTo c ++
          if t.stream.closed then [.collected (taken ++ t.stream.buffer)] else [] := by
  cases hclosed : t.stream.closed <;> cases hbuffer : t.stream.buffer <;>
    simp [serve, look, hclosed, hbuffer, repliesTo, finish, enqueue, wake]

/-- The consumer looks, and the reader in its place. -/
theorem Alongside.readAt_of_eq [LawfulBEq ι] (h : Alongside c t u) {taken : List ε} {position : Nat}
    (hparty : t.ready[position]? = some ⟨c, .collect taken, false⟩)
    (hwaiting : t.stream.closed = true → t.waiting = []) (hunanswered : t.repliesTo c = []) :
    Alongside c (t.serveAt position) (u.readAt c position) := by
  have hready : u.ready = t.ready.map (Party.recast Ask.single) := congrArg Traffic.ready h.state
  have hparty' : u.ready[position]? = some ⟨c, .receive, false⟩ := by
    rw [hready, List.getElem?_map, hparty]
    rfl
  have hrest : ({ u with ready := u.ready.eraseIdx position } : Traffic ι ε).hush c =
      ({ t with ready := t.ready.eraseIdx position } : Traffic ι ε).single.hush c := by
    have hstate := congrArg
      (fun v : Traffic ι ε => { v with ready := v.ready.eraseIdx position }) h.state
    simpa [hush, recast, List.eraseIdx_map] using hstate
  simp only [readAt, hparty', serveAt, hparty, BEq.rfl, if_true]
  constructor
  · rw [hush_readOut, hrest, ← hush_readOut]
    exact hush_readOut_single taken hwaiting
  · obtain ⟨htaken, htold⟩ :=
      serve_collect (c := c) { t with ready := t.ready.eraseIdx position } taken
    have hbefore : u.repliesTo c = t.taken.map .received := by
      rw [h.told, hunanswered, List.map_nil, List.append_nil]
    have hafter := repliesTo_readOut (c := c) { u with ready := u.ready.eraseIdx position }
    refine hafter.trans ?_
    rw [htaken, htold]
    change u.repliesTo c ++ (u.stream.buffer.map .received ++ _) =
      (t.taken ++ t.stream.buffer).map .received ++ (t.repliesTo c ++ _).map _
    rw [hbefore, hunanswered, h.stream, List.map_append, List.nil_append, List.append_assoc]
    cases t.stream.closed <;> rfl

/-- A producer looks. -/
theorem Alongside.readAt_of_ne (h : Alongside c t u) {position : Nat} {party : Party ι ε}
    (hparty : t.ready[position]? = some party) (hid : (party.id == c) = false)
    (hask : party.ask.receives = false) :
    Alongside c (t.serveAt position) (u.readAt c position) := by
  have hready : u.ready = t.ready.map (Party.recast Ask.single) := congrArg Traffic.ready h.state
  have hsame : party.recast Ask.single = party := by
    rw [Party.recast, single_of_producer hask]
  have hparty' : u.ready[position]? = some party := by
    rw [hready, List.getElem?_map, hparty, Option.map_some, hsame]
  have hread : u.readAt c position = u.serveAt position := by
    rw [readAt, hparty']
    exact if_neg (by simp [hid])
  have halone := letAlone_serveAt hparty hid hask
  have halone' := letAlone_serveAt hparty' hid hask
  rw [hread]
  constructor
  · have hrecast : (t.serveAt position).single = t.single.serveAt position :=
      recast_serveAt rfl fun party' hparty'' => by
        rw [hparty] at hparty''
        cases hparty''
        exact look_single t.stream hask
    rw [hush_serveAt, h.state, ← hush_serveAt, hrecast]
  · rw [halone'.told, halone.taken, halone.told, h.told]

omit [BEq ι] in
theorem Watchful.eq_nil_of_closed (h : Watchful t) (hclosed : t.stream.closed = true) :
    t.waiting = [] := by
  rw [List.eq_nil_iff_forall_not_mem]
  intro party hparty
  have hunclosed := (h party hparty).unclosed
  exact Bool.false_ne_true (hunclosed.symm.trans hclosed)

/-- Everybody looks alike to the reader and to who collects. -/
theorem Alongside.readAt [LawfulBEq ι] (h : Alongside c t u) (hgathering : Gathering c true t)
    (hwatchful : Watchful t) (position : Nat) :
    Alongside c (t.serveAt position) (u.readAt c position) := by
  cases hparty : t.ready[position]? with
  | none =>
      have hready : u.ready = t.ready.map (Party.recast Ask.single) :=
        congrArg Traffic.ready h.state
      have hparty' : u.ready[position]? = none := by
        rw [hready, List.getElem?_map, hparty]
        rfl
      simp only [serveAt_of_none hparty, Traffic.readAt, hparty']
      exact h
  | some party =>
      cases hid : party.id == c with
      | true =>
          obtain ⟨-, rfl, hunanswered⟩ := hgathering.own.eq_of_ready hparty hid
          exact h.readAt_of_eq hparty hwatchful.eq_nil_of_closed hunanswered
      | false =>
          have hmem : party ∈ t.parties := List.mem_append_right _ (List.mem_of_getElem? hparty)
          exact h.readAt_of_ne hparty hid (hgathering.produced.asks party hmem hid)

theorem Alongside.of_still (h : Alongside c t u) {s : Step ι ε}
    (hs : ∀ position, s ≠ .serve position)
    (hstate : (u.step s).hush c = (t.step s).single.hush c) :
    Alongside c (t.step s) (u.step s) := by
  refine ⟨hstate, ?_⟩
  rw [repliesTo, (step_still hs).1, repliesTo, (step_still hs).1, (step_still hs).2]
  exact h.told

theorem Alongside.readStep [LawfulBEq ι] (h : Alongside c t u) (hgathering : Gathering c true t)
    (hwatchful : Watchful t) {s : Step ι ε} (hs : s.produces c = true) :
    Alongside c (t.step s) (u.readStep c s) := by
  cases s with
  | start id ask =>
      simp only [Step.produces, Bool.and_eq_true, Bool.not_eq_true'] at hs
      refine h.of_still (by simp) ?_
      have hstate := congrArg (fun v : Traffic ι ε => v.start id ask) h.state
      have hrecast : (t.start id ask).single = t.single.start id ask := by
        rw [single, recast_start, single_of_producer hs.2]
      rw [Traffic.step, Traffic.step, hrecast]
      exact hstate
  | serve position => exact h.readAt hgathering hwatchful position
  | withdraw id =>
      refine h.of_still (by simp) ?_
      have hstate := congrArg (fun v : Traffic ι ε => v.withdraw id) h.state
      rw [Traffic.step, Traffic.step, single, recast_withdraw]
      exact hstate
  | close =>
      refine h.of_still (by simp) ?_
      rw [hush_close, h.state, ← hush_close]
      exact congrArg (hush c) recast_close.symm
  | sendFinal entry =>
      refine h.of_still (by simp) ?_
      rw [hush_sendFinal, h.state, ← hush_sendFinal]
      exact congrArg (hush c) (recast_sendFinal entry).symm

theorem Alongside.readAll [LawfulBEq ι] (h : Alongside c t u) (hgathering : Gathering c true t)
    (hwatchful : Watchful t) {steps : List (Step ι ε)}
    (hsteps : ∀ s ∈ steps, s.produces c = true) :
    Alongside c (t.stepAll steps) (u.readAll c steps) := by
  induction steps generalizing t u with
  | nil => exact h
  | cons s steps ih =>
      have hs := hsteps s List.mem_cons_self
      exact ih (h.readStep hgathering hwatchful hs) (hgathering.step hs) (hwatchful.step s)
        fun s' hs' => hsteps s' (List.mem_cons_of_mem _ hs')

end Reading

/-! ### All three -/

section InStep

variable [BEq ι] {c : ι} {t u : Traffic ι ε} {came : Bool}
variable {f : Ask ε → Ask ε} {g : Reply ε → Reply ε}

/-- Who waits and who is to look, in order. -/
def lineup (t : Traffic ι ε) : List ι × List ι := (t.waiting.map Party.id, t.ready.map Party.id)

omit [BEq ι] in
theorem lineup_recast (t : Traffic ι ε) : (t.recast f g).lineup = t.lineup := by
  simp [lineup, recast, Function.comp_def, Party.recast]

theorem without_recast (t : Traffic ι ε) : (t.recast f g).without c = (t.without c).recast f g := by
  simp [without, recast, List.filter_map, Function.comp_def, Party.recast]

theorem without_hush (t : Traffic ι ε) : (t.hush c).without c = t.without c := by
  simp [without, hush, List.filter_filter]

/-- Apart from the consumer nobody's words are exchanged. -/
theorem Produced.without_recast (h : Produced c t)
    (hask : ∀ ask : Ask ε, ask.receives = false → f ask = ask)
    (hreply : ∀ answer ∈ t.finished, (answer.1 == c) = false → g answer.2 = answer.2) :
    (t.recast f g).without c = t.without c := by
  rw [Traffic.without_recast]
  apply recast_eq_self
  · intro party hparty
    rw [parties, without, ← List.filter_append] at hparty
    obtain ⟨hmem, hid⟩ := List.mem_filter.mp hparty
    exact hask party.ask (h.asks party hmem (by simpa using hid))
  · intro answer hanswer
    obtain ⟨hmem, hid⟩ := List.mem_filter.mp hanswer
    exact hreply answer hmem (by simpa using hid)

/-- Before the consumer comes, there is nobody whose words could be exchanged. -/
theorem Gathering.recast_of_ahead (h : Gathering c false t)
    (hask : ∀ ask : Ask ε, ask.receives = false → f ask = ask)
    (hreply : ∀ answer ∈ t.finished, (answer.1 == c) = false → g answer.2 = answer.2) :
    t.recast f g = t := by
  cases h.own with
  | ahead absent untold _ =>
      have hparties : ∀ party ∈ t.parties, ¬(party.id == c) = true :=
        List.filter_eq_nil_iff.mp absent
      have hfinished : ∀ answer ∈ t.finished, ¬(answer.1 == c) = true :=
        List.filter_eq_nil_iff.mp (List.map_eq_nil_iff.mp untold)
      apply recast_eq_self
      · intro party hparty
        have hid : (party.id == c) = false := by simpa using hparties party hparty
        exact hask party.ask (h.produced.asks party hparty hid)
      · intro answer hanswer
        exact hreply answer hanswer (by simpa using hfinished answer hanswer)

/-- Who keeps the newest entry does what who collects does, in other words. -/
theorem Gathering.keeping_eq_digest (h : Gathering c false t) {steps : List (Step ι ε)}
    (hsteps : ∀ s ∈ steps, s.produces c = true) :
    (t.start c (.last none)).stepAll steps = ((t.start c (.collect [])).stepAll steps).digest := by
  have harrive : (t.start c (.collect [])).digest = t.start c (.last none) := by
    rw [Traffic.digest, recast_start,
      h.recast_of_ahead (fun _ => digest_of_producer) h.produced.replies]
    rfl
  have hsame : steps.map Step.digest = steps :=
    (List.map_congr_left fun s hs => digest_of_produces (hsteps s hs)).trans (List.map_id _)
  rw [digest_stepAll, harrive, hsame]

/-- A reader comes in the place of who collects. -/
theorem Gathering.alongside (h : Gathering c false t) :
    Alongside c (t.start c (.collect [])) (t.start c .receive) := by
  constructor
  · rw [single, recast_start, h.recast_of_ahead (fun _ => single_of_producer) fun _ _ _ => rfl]
    rfl
  · cases h.own with
    | ahead _ untold untouched =>
        have htaken : (t.start c (.collect [])).taken = [] := untouched
        have hreplies : (t.start c (.collect [])).repliesTo c = [] := untold
        rw [htaken, hreplies]
        exact untold

theorem Alongside.lineup (h : Alongside c t u) : u.lineup = t.lineup := by
  have hstate : (u.hush c).lineup = (t.single.hush c).lineup := by rw [h.state]
  have hsingle : t.single.lineup = t.lineup := lineup_recast t
  rw [← hsingle]
  exact hstate

theorem Alongside.without (h : Alongside c t u) (hgathering : Gathering c true t) :
    u.without c = t.without c := by
  rw [← without_hush, h.state, without_hush,
    hgathering.produced.without_recast (fun _ => single_of_producer) fun _ _ _ => rfl]

/-- Three consumers at the same moment: one that collects, one that keeps the newest entry, and one
that reads on and on. -/
structure InStep (c : ι) (collecting keeping reading : Traffic ι ε) : Prop where
  /-- Nobody else can tell which of them it is. -/
  others : keeping.without c = collecting.without c ∧ reading.without c = collecting.without c
  lineup : keeping.lineup = collecting.lineup ∧ reading.lineup = collecting.lineup
  /-- Who collects is told the end when the stream is closed and empty, and gets everything. -/
  collected : ∀ reply, collecting.replyTo? c = some reply →
    reply = .collected collecting.accepted ∧
      collecting.stream.closed = true ∧ collecting.stream.buffer = []
  /-- The other two are told at the same moment: one gets the newest of these entries, and the other
  one got them one by one. -/
  newest : keeping.replyTo? c = (collecting.replyTo? c).map Reply.digest
  entries : reading.repliesTo c =
    collecting.taken.map .received ++ (collecting.replyTo? c).toList.map fun _ => .ended
  /-- Once everybody has looked, all that was accepted is taken, and who is not told the end is on
  an open stream. -/
  settled : collecting.ready = [] →
    collecting.stream.buffer = [] ∧ collecting.taken = collecting.accepted ∧
      (collecting.replyTo? c).isSome = collecting.stream.closed

theorem inStep_of_alongside {capacity : Nat} (h : Alongside c t u)
    (hgathering : Gathering c true t) (hconserved : Conserved capacity t)
    (hwatchful : Watchful t) : InStep c t t.digest u where
  others :=
    have hproduced := hgathering.produced
    ⟨hproduced.without_recast (fun _ => digest_of_producer) hproduced.replies, h.without hgathering⟩
  lineup := ⟨lineup_recast t, h.lineup⟩
  collected _ hreply := hgathering.replyTo?_of_some hconserved hreply
  newest := by
    simp only [replyTo?, Traffic.digest, recast, List.find?_map, Option.map_map]
    rfl
  entries := by
    rw [h.told, replyTo?_eq_head?]
    cases hgathering.own with
    | underway _ unanswered => rw [unanswered]; rfl
    | through _ told _ _ => rw [told]; rfl
  settled := hgathering.settled hconserved hwatchful

/-- Whichever of the three comes after some steps of the producers, and in whatever order everybody
looks, further steps lead to the same. -/
theorem inStep_of_produces [LawfulBEq ι] {capacity : Int} {stream : Stream ε}
    (hstream : Stream.create capacity = .ok stream) {before after : List (Step ι ε)}
    (hbefore : ∀ s ∈ before, s.produces c = true) (hafter : ∀ s ∈ after, s.produces c = true) :
    let arrived := (onto stream).stepAll before
    InStep c ((arrived.start c (.collect [])).stepAll after)
      ((arrived.start c (.last none)).stepAll after)
      ((arrived.start c .receive).readAll c after) := by
  intro arrived
  obtain ⟨rfl, -⟩ := create_eq_ok hstream
  have hfirst : Gathering c false arrived := (Gathering.onto _).stepAll hbefore
  have hstart : Conserved capacity.toNat (onto ⟨capacity.toNat, [], false⟩ : Traffic ι ε) :=
    ⟨rfl, rfl, by constructor <;> simp [onto]⟩
  have hconserved := ((hstart.stepAll before).step (.start c (.collect []))).stepAll after
  have hnobody : Watchful (onto ⟨capacity.toNat, [], false⟩ : Traffic ι ε) :=
    fun _ hparty => absurd hparty List.not_mem_nil
  have hwatchful := (hnobody.stepAll before).step (.start c (.collect []))
  rw [hfirst.keeping_eq_digest hafter]
  exact inStep_of_alongside (hfirst.alongside.readAll hfirst.arrive hwatchful hafter)
    (hfirst.arrive.stepAll hafter) hconserved (hwatchful.stepAll after)

end InStep

end Traffic

end Vigil.Stream
