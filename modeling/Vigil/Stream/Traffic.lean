import Vigil.Stream

/-!
# Parties on a stream

Senders and receivers that cannot go on wait in one line. Whenever the stream changes, all of them
are woken, look again in the order in which they began to wait, and go back to the end of the line
if they still cannot go on. A party that is withdrawn while it waits leaves without any effect.

The state keeps what was accepted and what was taken, so that order and loss can be spoken of.
-/

namespace Vigil.Stream

inductive Ask (ε : Type) where
  | send (entry : ε)
  | receive
  /-- Takes everything until the stream ends; carries what was taken so far. -/
  | collect (taken : List ε)
  /-- Takes everything until the stream ends and keeps the newest entry. -/
  | last (newest : Option ε)
  | close

inductive Reply (ε : Type) where
  | sent
  | received (entry : ε)
  /-- The stream was closed and empty. -/
  | ended
  | collected (entries : List ε)
  | newest (entry : Option ε)
  | closed
  | denied (why : Denial)
  | withdrawn

structure Party (ι ε : Type) where
  id : ι
  ask : Ask ε
  /-- The party gave up before its request was met. -/
  withdrawn : Bool

/-- What one look at the stream leads to. -/
inductive Look (ε : Type) where
  /-- The request is met, with the changed stream and what was accepted and taken. -/
  | met (stream : Stream ε) (reply : Reply ε) (accepted taken : List ε)
  /-- The request is turned down and nothing changes. -/
  | turnedDown (reply : Reply ε)
  /-- The party has to wait, possibly after taking something. -/
  | blocked (stream : Stream ε) (ask : Ask ε) (taken : List ε)

variable {ι ε : Type}

/-- The request of a party against the stream as it is. -/
def look (s : Stream ε) : Ask ε → Look ε
  | .send e =>
      if s.closed then .turnedDown (.denied .sendAfterClose)
      else if s.hasRoom then .met (s.push e) .sent [e] []
      else .blocked s (.send e) []
  | .receive =>
      match s.buffer with
      | e :: rest => .met { s with buffer := rest } (.received e) [] [e]
      | [] => if s.closed then .turnedDown .ended else .blocked s .receive []
  | .collect taken =>
      let all := taken ++ s.buffer
      if s.closed then .met { s with buffer := [] } (.collected all) [] s.buffer
      else .blocked { s with buffer := [] } (.collect all) s.buffer
  | .last newest =>
      let newest' := s.buffer.getLast?.or newest
      if s.closed then .met { s with buffer := [] } (.newest newest') [] s.buffer
      else .blocked { s with buffer := [] } (.last newest') s.buffer
  | .close =>
      if s.closed then .turnedDown (.denied .closeAfterClose)
      else .met { s with closed := true } .closed [] []

/-- A stream with the parties on it. -/
structure Traffic (ι ε : Type) where
  stream : Stream ε
  /-- Those who cannot go on, the longest waiting first. -/
  waiting : List (Party ι ε)
  /-- Those who are to look at the stream, in order. -/
  ready : List (Party ι ε)
  /-- How requests ended, in order. -/
  finished : List (ι × Reply ε)
  /-- Everything the stream accepted, in order. -/
  accepted : List ε
  /-- Everything that was taken off the stream, in order. -/
  taken : List ε

namespace Traffic

/-- Nobody is on the stream yet. -/
def onto (s : Stream ε) : Traffic ι ε := ⟨s, [], [], [], [], []⟩

def start (t : Traffic ι ε) (id : ι) (ask : Ask ε) : Traffic ι ε :=
  { t with ready := t.ready ++ [⟨id, ask, false⟩] }

/-- Everybody who waits is to look again, after those who are already to look. -/
def wake (t : Traffic ι ε) : Traffic ι ε :=
  { t with ready := t.ready ++ t.waiting, waiting := [] }

def finish (t : Traffic ι ε) (id : ι) (reply : Reply ε) : Traffic ι ε :=
  { t with finished := t.finished ++ [(id, reply)] }

def enqueue (t : Traffic ι ε) (party : Party ι ε) : Traffic ι ε :=
  { t with waiting := t.waiting ++ [party] }

/-- A party that was to look does so. Whenever the stream has changed, the others are woken before
the party goes to the end of the line. -/
def serve (t : Traffic ι ε) (party : Party ι ε) : Traffic ι ε :=
  if party.withdrawn then t.finish party.id .withdrawn
  else
    match look t.stream party.ask with
    | .met stream reply accepted taken =>
        ({ t with
            stream := stream
            accepted := t.accepted ++ accepted
            taken := t.taken ++ taken }.wake).finish party.id reply
    | .turnedDown reply => t.finish party.id reply
    | .blocked stream ask taken =>
        let t' : Traffic ι ε := { t with stream := stream, taken := t.taken ++ taken }
        (if taken.isEmpty then t' else t'.wake).enqueue { party with ask := ask }

/-- Lets the party at a position of those who are to look do so. -/
def serveAt (t : Traffic ι ε) (position : Nat) : Traffic ι ε :=
  match t.ready[position]? with
  | none => t
  | some party => { t with ready := t.ready.eraseIdx position }.serve party

/-- The request of a party has not ended. -/
def isPending [BEq ι] (t : Traffic ι ε) (id : ι) : Bool :=
  (t.waiting ++ t.ready).any fun party => party.id == id

/-- Withdraws a party; it finds out at its next look. -/
def withdraw [BEq ι] (t : Traffic ι ε) (id : ι) : Traffic ι ε :=
  let mark (party : Party ι ε) : Party ι ε :=
    if party.id == id then { party with withdrawn := true } else party
  let (leaving, staying) := t.waiting.partition fun party => party.id == id
  { t with waiting := staying, ready := (t.ready ++ leaving).map mark }

def closeNow (t : Traffic ι ε) : Except Denial (Traffic ι ε) := do
  let stream ← t.stream.close
  return { t with stream := stream }.wake

/-- Puts a last entry on the stream, room or not, and closes it on the spot. -/
def sendFinal (t : Traffic ι ε) (e : ε) : Except Denial (Traffic ι ε) := do
  let stream ← t.stream.sendFinal e
  return { t with stream := stream, accepted := t.accepted ++ [e] }.wake

/-- How the request of a party ended, if it did. -/
def replyTo? [BEq ι] (t : Traffic ι ε) (id : ι) : Option (Reply ε) :=
  (t.finished.find? fun entry => entry.1 == id).map Prod.snd

/-- Nobody is to look at the stream any more. -/
def isSettled (t : Traffic ι ε) : Bool := t.ready.isEmpty

/-- A party that has to wait after taking something leaves an empty buffer where there was an entry;
one that took nothing leaves the stream as it was. -/
theorem look_blocked {s stream : Stream ε} {ask ask' : Ask ε} {taken : List ε}
    (h : look s ask = .blocked stream ask' taken) :
    (taken = [] ∧ stream = s) ∨ (taken ≠ [] ∧ stream.buffer.length < s.buffer.length) := by
  cases ask with
  | send e =>
      simp only [look] at h
      split at h
      · exact absurd h (by simp)
      · split at h
        · exact absurd h (by simp)
        · simp only [Look.blocked.injEq] at h
          exact .inl ⟨h.2.2.symm, h.1.symm⟩
  | receive =>
      simp only [look] at h
      split at h
      · exact absurd h (by simp)
      · split at h
        · exact absurd h (by simp)
        · simp only [Look.blocked.injEq] at h
          exact .inl ⟨h.2.2.symm, h.1.symm⟩
  | collect got =>
      simp only [look] at h
      split at h
      · exact absurd h (by simp)
      · simp only [Look.blocked.injEq] at h
        obtain ⟨rfl, _, rfl⟩ := h
        cases hb : s.buffer with
        | nil => exact .inl ⟨rfl, by cases s; simp_all⟩
        | cons e rest => exact .inr ⟨by simp, by simp⟩
  | last newest =>
      simp only [look] at h
      split at h
      · exact absurd h (by simp)
      · simp only [Look.blocked.injEq] at h
        obtain ⟨rfl, _, rfl⟩ := h
        cases hb : s.buffer with
        | nil => exact .inl ⟨rfl, by cases s; simp_all⟩
        | cons e rest => exact .inr ⟨by simp, by simp⟩
  | close =>
      simp only [look] at h
      split at h <;> exact absurd h (by simp)

/-- Lets everybody who is to look do so, in order, until nobody is left. Each look ends a request,
empties the buffer, or sends a party to wait. -/
def settle (t : Traffic ι ε) : Traffic ι ε :=
  match _hready : t.ready with
  | [] => t
  | party :: rest => settle ({ t with ready := rest }.serve party)
termination_by (t.ready.length + t.waiting.length, t.stream.buffer.length, t.ready.length)
decreasing_by
  unfold serve
  split
  · rw [_hready]
    apply Prod.Lex.left
    simp [finish]
  · split
    · rw [_hready]
      apply Prod.Lex.left
      simp [finish, wake]
    · rw [_hready]
      apply Prod.Lex.left
      simp [finish]
    · rename_i stream ask taken hlook
      simp_wf
      rw [_hready]
      rcases look_blocked hlook with ⟨htaken, hstream⟩ | ⟨htaken, hlength⟩
      · subst htaken
        subst hstream
        simp only [if_true, enqueue, List.length_append, List.length_cons,
          List.length_nil]
        rw [show rest.length + (t.waiting.length + (0 + 1)) = rest.length + 1 + t.waiting.length by
          omega]
        apply Prod.Lex.right
        apply Prod.Lex.right
        omega
      · simp only [htaken, if_false, enqueue, wake, List.length_append, List.length_cons,
          List.length_nil]
        rw [show rest.length + t.waiting.length + (0 + (0 + 1)) =
          rest.length + 1 + t.waiting.length by omega]
        apply Prod.Lex.right
        apply Prod.Lex.left
        exact hlength

end Traffic

end Vigil.Stream
