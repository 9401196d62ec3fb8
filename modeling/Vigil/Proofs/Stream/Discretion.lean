import Vigil.Proofs.Stream.Conservation

/-!
# A stream does not look at its entries

Who gets to look, who has to wait and what is answered depends on how many entries there are, and
not on what they are.  So if every entry is exchanged for another one, the parties on a stream do as
they did before, with the exchanged entries.
-/

namespace Vigil.Stream

variable {ε δ : Type}

/-! ### Exchanging the entries -/

def map (f : ε → δ) (s : Stream ε) : Stream δ := ⟨s.capacity, s.buffer.map f, s.closed⟩

def Ask.map (f : ε → δ) : Ask ε → Ask δ
  | .send entry => .send (f entry)
  | .receive => .receive
  | .collect taken => .collect (taken.map f)
  | .last newest => .last (newest.map f)
  | .close => .close

def Reply.map (f : ε → δ) : Reply ε → Reply δ
  | .sent => .sent
  | .received entry => .received (f entry)
  | .ended => .ended
  | .collected entries => .collected (entries.map f)
  | .newest entry => .newest (entry.map f)
  | .closed => .closed
  | .denied why => .denied why
  | .withdrawn => .withdrawn

def Party.map {ι : Type} (f : ε → δ) (party : Party ι ε) : Party ι δ :=
  ⟨party.id, party.ask.map f, party.withdrawn⟩

def Look.map (f : ε → δ) : Look ε → Look δ
  | .met stream reply accepted taken =>
      .met (stream.map f) (reply.map f) (accepted.map f) (taken.map f)
  | .turnedDown reply => .turnedDown (reply.map f)
  | .blocked stream ask taken => .blocked (stream.map f) (ask.map f) (taken.map f)

def Step.map {ι : Type} (f : ε → δ) : Step ι ε → Step ι δ
  | .start id ask => .start id (ask.map f)
  | .serve position => .serve position
  | .withdraw id => .withdraw id
  | .close => .close
  | .sendFinal entry => .sendFinal (f entry)

def Traffic.map {ι : Type} (f : ε → δ) (t : Traffic ι ε) : Traffic ι δ where
  stream := t.stream.map f
  waiting := t.waiting.map (Party.map f)
  ready := t.ready.map (Party.map f)
  finished := t.finished.map fun answer => (answer.1, answer.2.map f)
  accepted := t.accepted.map f
  taken := t.taken.map f

/-! ### Exchanging nothing -/

theorem Ask.map_id (ask : Ask ε) : ask.map id = ask := by
  cases ask <;> simp [Ask.map]

theorem Reply.map_id (reply : Reply ε) : reply.map id = reply := by
  cases reply <;> simp [Reply.map]

theorem Traffic.map_id {ι : Type} (t : Traffic ι ε) : t.map id = t := by
  have hparty : (Party.map id : Party ι ε → Party ι ε) = id := by
    funext party
    rw [Party.map, Ask.map_id]
    rfl
  simp [Traffic.map, Stream.map, hparty, Reply.map_id]

/-! ### Looking at the stream -/

theorem hasRoom_map (f : ε → δ) (s : Stream ε) : (s.map f).hasRoom = s.hasRoom := by
  simp [hasRoom, map]

theorem push_map (f : ε → δ) (s : Stream ε) (entry : ε) :
    (s.map f).push (f entry) = (s.push entry).map f := by
  simp [push, map]

/-- What a look leads to does not depend on the entries. -/
theorem look_map (f : ε → δ) (s : Stream ε) (ask : Ask ε) :
    look (s.map f) (ask.map f) = (look s ask).map f := by
  have hclosed : (s.map f).closed = s.closed := rfl
  cases ask with
  | send entry =>
      simp only [Ask.map, look, hclosed, hasRoom_map, push_map]
      split_ifs <;> rfl
  | receive =>
      obtain ⟨capacity, buffer, closed⟩ := s
      cases buffer with
      | nil => cases closed <;> rfl
      | cons entry rest => rfl
  | collect taken =>
      simp only [Ask.map, look, hclosed]
      split_ifs <;> simp [Look.map, Reply.map, Ask.map, map]
  | last newest =>
      have hnewest : (s.map f).buffer.getLast?.or (newest.map f) =
          (s.buffer.getLast?.or newest).map f := by
        simp [map, List.getLast?_map, Option.map_or]
      simp only [Ask.map, look, hclosed, hnewest]
      split_ifs <;> simp [Look.map, Reply.map, Ask.map, map]
  | close =>
      simp only [Ask.map, look, hclosed]
      split_ifs <;> rfl

namespace Traffic

variable {ι : Type} (f : ε → δ) (t : Traffic ι ε)

theorem map_start (id : ι) (ask : Ask ε) :
    (t.map f).start id (ask.map f) = (t.start id ask).map f := by
  simp [map, start, Party.map]

theorem map_wake : (t.map f).wake = t.wake.map f := by
  simp [map, wake]

theorem map_finish (id : ι) (reply : Reply ε) :
    (t.map f).finish id (reply.map f) = (t.finish id reply).map f := by
  simp [map, finish]

theorem map_serve (party : Party ι ε) : (t.map f).serve (party.map f) = (t.serve party).map f := by
  have hlook : look (t.map f).stream (party.map f).ask = (look t.stream party.ask).map f :=
    look_map f t.stream party.ask
  have hgone : (party.map f).withdrawn = party.withdrawn := rfl
  rw [serve, serve, hgone, hlook]
  split_ifs
  · exact t.map_finish f party.id .withdrawn
  · cases look t.stream party.ask with
    | met stream reply accepted taken =>
        simp [Look.map, map, wake, finish, Party.map]
    | turnedDown reply => exact t.map_finish f party.id reply
    | blocked stream ask taken =>
        cases taken <;> simp [Look.map, map, wake, enqueue, Party.map]

theorem map_serveAt (position : Nat) : (t.map f).serveAt position = (t.serveAt position).map f := by
  have hready : (t.map f).ready[position]? = t.ready[position]?.map (Party.map f) :=
    List.getElem?_map
  rw [serveAt, serveAt, hready]
  cases t.ready[position]? with
  | none => rfl
  | some party =>
      have hrest : ({ t.map f with ready := (t.map f).ready.eraseIdx position } : Traffic ι δ) =
          ({ t with ready := t.ready.eraseIdx position } : Traffic ι ε).map f := by
        simp [map, List.eraseIdx_map]
      simp only [Option.map_some, hrest, map_serve]

theorem isSettled_map : (t.map f).isSettled = t.isSettled := by
  simp [isSettled, map]

variable [BEq ι]

theorem map_withdraw (id : ι) : (t.map f).withdraw id = (t.withdraw id).map f := by
  obtain ⟨hwaiting, hready⟩ := lists_withdraw t (t.map f) (Party.map f) (fun _ => rfl)
    (fun _ => rfl) rfl rfl id
  have hmapped : (t.withdraw id).map f =
      { (t.map f).withdraw id with
        waiting := (t.withdraw id).waiting.map (Party.map f)
        ready := (t.withdraw id).ready.map (Party.map f) } := rfl
  rw [hmapped, ← hwaiting, ← hready]

theorem map_replyTo? (id : ι) : (t.map f).replyTo? id = (t.replyTo? id).map (Reply.map f) := by
  simp only [replyTo?, map, List.find?_map, Option.map_map]
  rfl

/-- Every step commutes with the exchange. -/
theorem map_step (s : Step ι ε) : (t.map f).step (s.map f) = (t.step s).map f := by
  have hsame : (t.map f).stream.closed = t.stream.closed := rfl
  cases s with
  | start id ask => exact t.map_start f id ask
  | serve position => exact t.map_serveAt f position
  | withdraw id => exact t.map_withdraw f id
  | close =>
      cases hclosed : t.stream.closed with
      | true =>
          simp only [Step.map, step, closeNow_of_closed hclosed,
            closeNow_of_closed (hsame.trans hclosed)]
      | false =>
          simp only [Step.map, step, closeNow_of_unclosed hclosed,
            closeNow_of_unclosed (hsame.trans hclosed), ← map_wake]
          rfl
  | sendFinal entry =>
      cases hclosed : t.stream.closed with
      | true =>
          simp only [Step.map, step, sendFinal_of_closed hclosed,
            sendFinal_of_closed (hsame.trans hclosed)]
      | false =>
          simp only [Step.map, step, sendFinal_of_unclosed hclosed,
            sendFinal_of_unclosed (hsame.trans hclosed), ← map_wake]
          simp [map, Stream.map, push]

/-- What looks alike before a step looks alike after it. -/
theorem step_congr {f : ε → δ} {t t' : Traffic ι ε} (h : t.map f = t'.map f) (s s' : Step ι ε)
    (hstep : s.map f = s'.map f) : (t.step s).map f = (t'.step s').map f := by
  rw [← map_step, ← map_step, h, hstep]

end Traffic

end Vigil.Stream
