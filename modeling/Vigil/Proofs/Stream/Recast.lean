import Vigil.Proofs.Stream.Conservation

/-!
# Asking in other words

Whoever collects everything and whoever keeps only the newest entry take the same entries at the
same looks, and differ in what they remember of them.  So the history of the one is that of the
other with the requests and answers exchanged, and whatever else is on the stream cannot tell which
it was.
-/

namespace Vigil.Stream

variable {ι ε : Type}

def Party.recast (f : Ask ε → Ask ε) (party : Party ι ε) : Party ι ε :=
  { party with ask := f party.ask }

def Look.recast (f : Ask ε → Ask ε) (g : Reply ε → Reply ε) : Look ε → Look ε
  | .met stream reply accepted taken => .met stream (g reply) accepted taken
  | .turnedDown reply => .turnedDown (g reply)
  | .blocked stream ask taken => .blocked stream (f ask) taken

namespace Traffic

/-- The state with other requests and answers. -/
def recast (f : Ask ε → Ask ε) (g : Reply ε → Reply ε) (t : Traffic ι ε) : Traffic ι ε :=
  { t with
    waiting := t.waiting.map (Party.recast f)
    ready := t.ready.map (Party.recast f)
    finished := t.finished.map fun answer => (answer.1, g answer.2) }

section Recast

variable {f : Ask ε → Ask ε} {g : Reply ε → Reply ε} {t : Traffic ι ε}

/-- Words that mean the same in both ways are left as they are. -/
theorem recast_eq_self (hasks : ∀ party ∈ t.parties, f party.ask = party.ask)
    (hreplies : ∀ answer ∈ t.finished, g answer.2 = answer.2) : t.recast f g = t := by
  have hparties {parties : List (Party ι ε)} (hsub : parties ⊆ t.parties) :
      parties.map (Party.recast f) = parties := by
    refine (List.map_congr_left fun party hparty => ?_).trans (List.map_id _)
    rw [Party.recast, hasks party (hsub hparty)]
    rfl
  have hfinished : (t.finished.map fun answer => (answer.1, g answer.2)) = t.finished := by
    refine (List.map_congr_left fun answer hanswer => ?_).trans (List.map_id _)
    rw [hreplies answer hanswer]
    rfl
  rw [recast, hparties (List.subset_append_left _ _), hparties (List.subset_append_right _ _),
    hfinished]

theorem recast_start (id : ι) (ask : Ask ε) :
    (t.start id ask).recast f g = (t.recast f g).start id (f ask) := by
  simp [recast, start, Party.recast]

theorem recast_wake : t.wake.recast f g = (t.recast f g).wake := by
  simp [recast, wake]

theorem recast_finish (id : ι) (reply : Reply ε) :
    (t.finish id reply).recast f g = (t.recast f g).finish id (g reply) := by
  simp [recast, finish]

/-- If the request finds the same in other words, so does the party. -/
theorem recast_serve {party : Party ι ε} (hwithdrawn : g .withdrawn = .withdrawn)
    (hlook : look t.stream (f party.ask) = (look t.stream party.ask).recast f g) :
    (t.serve party).recast f g = (t.recast f g).serve (party.recast f) := by
  have hstream : (t.recast f g).stream = t.stream := rfl
  have hask : (party.recast f).ask = f party.ask := rfl
  have hgone : (party.recast f).withdrawn = party.withdrawn := rfl
  rw [serve, serve, hgone, hstream, hask, hlook]
  split_ifs
  · rw [recast_finish, hwithdrawn]
    rfl
  · cases look t.stream party.ask with
    | met stream reply accepted taken => simp [Look.recast, recast, wake, finish, Party.recast]
    | turnedDown reply => exact recast_finish party.id reply
    | blocked stream ask taken =>
        cases taken <;> simp [Look.recast, recast, wake, enqueue, Party.recast]

theorem recast_serveAt {position : Nat} (hwithdrawn : g .withdrawn = .withdrawn)
    (hlook : ∀ party, t.ready[position]? = some party →
      look t.stream (f party.ask) = (look t.stream party.ask).recast f g) :
    (t.serveAt position).recast f g = (t.recast f g).serveAt position := by
  have hready : (t.recast f g).ready[position]? = t.ready[position]?.map (Party.recast f) :=
    List.getElem?_map
  rw [serveAt, serveAt, hready]
  cases hparty : t.ready[position]? with
  | none => rfl
  | some party =>
      have hrest : ({ t.recast f g with ready := (t.recast f g).ready.eraseIdx position } :
          Traffic ι ε) =
            ({ t with ready := t.ready.eraseIdx position } : Traffic ι ε).recast f g := by
        simp [recast, List.eraseIdx_map]
      simp only [Option.map_some, hrest]
      exact recast_serve hwithdrawn (hlook party hparty)

variable [BEq ι]

theorem recast_withdraw (id : ι) : (t.withdraw id).recast f g = (t.recast f g).withdraw id := by
  obtain ⟨hwaiting, hready⟩ := lists_withdraw t (t.recast f g) (Party.recast f) (fun _ => rfl)
    (fun _ => rfl) rfl rfl id
  rw [recast, ← hwaiting, ← hready]
  rfl

theorem recast_close : (t.step .close).recast f g = (t.recast f g).step .close := by
  have hsame : (t.recast f g).stream.closed = t.stream.closed := rfl
  cases hclosed : t.stream.closed with
  | true => simp only [step, closeNow_of_closed hclosed, closeNow_of_closed (hsame.trans hclosed)]
  | false =>
      simp only [step, closeNow_of_unclosed hclosed, closeNow_of_unclosed (hsame.trans hclosed),
        recast_wake]
      rfl

theorem recast_sendFinal (entry : ε) :
    (t.step (.sendFinal entry)).recast f g = (t.recast f g).step (.sendFinal entry) := by
  have hsame : (t.recast f g).stream.closed = t.stream.closed := rfl
  cases hclosed : t.stream.closed with
  | true =>
      simp only [step, sendFinal_of_closed hclosed, sendFinal_of_closed (hsame.trans hclosed)]
  | false =>
      simp only [step, sendFinal_of_unclosed hclosed, sendFinal_of_unclosed (hsame.trans hclosed),
        recast_wake]
      rfl

end Recast

end Traffic

/-! ### Keeping only the newest -/

/-- Who collects, as one who keeps the newest. -/
def Ask.digest : Ask ε → Ask ε
  | .collect taken => .last taken.getLast?
  | ask => ask

def Reply.digest : Reply ε → Reply ε
  | .collected entries => .newest entries.getLast?
  | reply => reply

def Step.digest : Step ι ε → Step ι ε
  | .start id ask => .start id ask.digest
  | s => s

theorem look_digest (s : Stream ε) (ask : Ask ε) :
    look s ask.digest = (look s ask).recast Ask.digest Reply.digest := by
  cases ask with
  | send entry =>
      simp only [Ask.digest, look]
      split_ifs <;> rfl
  | receive =>
      obtain ⟨capacity, buffer, closed⟩ := s
      cases buffer with
      | nil => cases closed <;> rfl
      | cons entry rest => rfl
  | collect taken =>
      have hnewest : s.buffer.getLast?.or taken.getLast? = (taken ++ s.buffer).getLast? :=
        List.getLast?_append.symm
      simp only [Ask.digest, look, hnewest]
      split_ifs <;> rfl
  | last newest =>
      simp only [Ask.digest, look]
      split_ifs <;> rfl
  | close =>
      simp only [Ask.digest, look]
      split_ifs <;> rfl

namespace Traffic

/-- The state as if everybody who collects kept only the newest. -/
abbrev digest (t : Traffic ι ε) : Traffic ι ε := t.recast Ask.digest Reply.digest

variable [BEq ι]

/-- Nothing that happens on a stream depends on whether it is collected. -/
theorem digest_step (t : Traffic ι ε) (s : Step ι ε) :
    (t.step s).digest = t.digest.step s.digest := by
  cases s with
  | start id ask => exact recast_start id ask
  | serve position => exact recast_serveAt rfl fun party _ => look_digest t.stream party.ask
  | withdraw id => exact recast_withdraw id
  | close => exact recast_close
  | sendFinal entry => exact recast_sendFinal entry

theorem digest_stepAll (t : Traffic ι ε) (steps : List (Step ι ε)) :
    (t.stepAll steps).digest = t.digest.stepAll (steps.map Step.digest) := by
  induction steps generalizing t with
  | nil => rfl
  | cons s steps ih =>
      have hlater := ih (t.step s)
      rwa [digest_step] at hlater

end Traffic

end Vigil.Stream
