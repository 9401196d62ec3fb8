import Vigil.Proofs.Stream.Service

/-!
# Nothing is lost on a stream

Whatever the parties on a stream do, and in whatever order they get to look, what was taken off the
stream and what still lies on it is what was put there, in the same order.  What was put there is
read off the answers that the parties got, so a send that failed, that still waits or that was
withdrawn counts for nothing.
-/

namespace Vigil.Stream

/-- What can happen to the parties on a stream. -/
inductive Step (ι ε : Type) where
  | start (id : ι) (ask : Ask ε)
  | serve (position : Nat)
  | withdraw (id : ι)
  | close
  | sendFinal (entry : ε)

namespace Traffic

variable {ι ε : Type} [BEq ι]

/-- The state after a step.  A close or a last entry that is turned down changes nothing. -/
def step (t : Traffic ι ε) : Step ι ε → Traffic ι ε
  | .start id ask => t.start id ask
  | .serve position => t.serveAt position
  | .withdraw id => t.withdraw id
  | .close =>
      match t.closeNow with
      | .ok t' => t'
      | .error _ => t
  | .sendFinal entry =>
      match t.sendFinal entry with
      | .ok t' => t'
      | .error _ => t

/-- The state after some steps. -/
def stepAll (t : Traffic ι ε) (steps : List (Step ι ε)) : Traffic ι ε := steps.foldl step t

/-- The answers that a step gives. -/
def replies (t : Traffic ι ε) (s : Step ι ε) : List (ι × Reply ε) :=
  (t.step s).finished.drop t.finished.length

/-- The entries that a step puts on the stream, as those who offered them see it: their send
returned, or their last entry was not turned down. -/
def accepts (t : Traffic ι ε) (s : Step ι ε) : List ε :=
  match s with
  | .serve position =>
      match t.ready[position]?, t.replies s with
      | some ⟨_, .send entry, _⟩, [(_, .sent)] => [entry]
      | _, _ => []
  | .sendFinal entry =>
      match t.sendFinal entry with
      | .ok _ => [entry]
      | .error _ => []
  | _ => []

/-- The entries that a step takes off the stream: a receive takes the one it returns, and who takes
everything takes all that is there. -/
def removes (t : Traffic ι ε) (s : Step ι ε) : List ε :=
  match s with
  | .serve position =>
      match t.ready[position]?, t.replies s with
      | some ⟨_, .receive, _⟩, [(_, .received entry)] => [entry]
      | some ⟨_, .collect _, false⟩, _ => t.stream.buffer
      | some ⟨_, .last _, false⟩, _ => t.stream.buffer
      | _, _ => []
  | _ => []

/-- The entries that some steps put on the stream, in order. -/
def acceptedBy (t : Traffic ι ε) : List (Step ι ε) → List ε
  | [] => []
  | s :: steps => t.accepts s ++ acceptedBy (t.step s) steps

/-- The entries that some steps take off the stream, in order. -/
def removedBy (t : Traffic ι ε) : List (Step ι ε) → List ε
  | [] => []
  | s :: steps => t.removes s ++ removedBy (t.step s) steps

theorem replies_eq {t : Traffic ι ε} {s : Step ι ε} {answers : List (ι × Reply ε)}
    (hfinished : (t.step s).finished = t.finished ++ answers) : t.replies s = answers := by
  simp [replies, hfinished]

/-- Serving a party puts on the stream what its answer says and takes off what its request says. -/
theorem serve_account (t : Traffic ι ε) (position : Nat) :
    (t.serveAt position).accepted = t.accepted ++ t.accepts (.serve position) ∧
      (t.serveAt position).taken = t.taken ++ t.removes (.serve position) := by
  rcases hparty : t.ready[position]? with _ | ⟨id, ask, gone⟩
  · simp [serveAt_of_none hparty, accepts, removes, hparty]
  obtain ⟨others, _, hserved⟩ := serveAt_served hparty
  cases hserved with
  | withdrawn left _ finished _ accepted taken =>
      have hreplies := replies_eq (s := .serve position) finished
      simp only at left
      subst left
      cases ask <;> simp [accepts, removes, hparty, hreplies, accepted, taken]
  | met stayed outlook _ finished _ accepted taken =>
      have hreplies := replies_eq (s := .serve position) finished
      simp only at stayed outlook
      subst stayed
      cases outlook <;> simp [accepts, removes, hparty, hreplies, accepted, taken]
  | turnedDown stayed outlook _ finished _ accepted taken =>
      have hreplies := replies_eq (s := .serve position) finished
      simp only at stayed outlook
      subst stayed
      cases outlook <;> simp [accepts, removes, hparty, hreplies, accepted, taken]
  | blocked stayed outlook _ finished _ accepted taken =>
      have hreplies : t.replies (.serve position) = [] :=
        replies_eq (finished.trans (List.append_nil _).symm)
      simp only at stayed outlook
      subst stayed
      cases outlook <;> simp [accepts, removes, hparty, hreplies, accepted, taken]

theorem step_account (t : Traffic ι ε) (s : Step ι ε) :
    (t.step s).accepted = t.accepted ++ t.accepts s ∧
      (t.step s).taken = t.taken ++ t.removes s := by
  cases s with
  | start id ask => simp [step, start, accepts, removes]
  | serve position => exact serve_account t position
  | withdraw id => simp [step, accepts, removes]
  | close =>
      cases hclosed : t.stream.closed with
      | false => simp [step, closeNow_of_unclosed hclosed, wake, accepts, removes]
      | true => simp [step, closeNow_of_closed hclosed, accepts, removes]
  | sendFinal entry =>
      cases hclosed : t.stream.closed with
      | false => simp [step, sendFinal_of_unclosed hclosed, wake, accepts, removes]
      | true => simp [step, sendFinal_of_closed hclosed, accepts, removes]

/-- What some steps put on the stream and take off it is what the histories grow by. -/
theorem stepAll_account (t : Traffic ι ε) (steps : List (Step ι ε)) :
    (t.stepAll steps).accepted = t.accepted ++ t.acceptedBy steps ∧
      (t.stepAll steps).taken = t.taken ++ t.removedBy steps := by
  induction steps generalizing t with
  | nil => simp [stepAll, acceptedBy, removedBy]
  | cons s steps ih =>
      obtain ⟨haccepted, htaken⟩ := ih (t.step s)
      obtain ⟨hnew, hgone⟩ := step_account t s
      constructor
      · change ((t.step s).stepAll steps).accepted = _
        rw [haccepted, hnew, acceptedBy, List.append_assoc]
      · change ((t.step s).stepAll steps).taken = _
        rw [htaken, hgone, removedBy, List.append_assoc]

/-- Nothing that happens on a stream takes back an answer. -/
theorem finished_prefix_step (t : Traffic ι ε) (s : Step ι ε) :
    t.finished <+: (t.step s).finished := by
  cases s with
  | start id ask => exact List.prefix_rfl
  | withdraw id => exact List.prefix_rfl
  | close =>
      cases hclosed : t.stream.closed with
      | true => simp [Traffic.step, closeNow_of_closed hclosed]
      | false => simp [Traffic.step, closeNow_of_unclosed hclosed, wake]
  | sendFinal entry =>
      cases hclosed : t.stream.closed with
      | true => simp [Traffic.step, sendFinal_of_closed hclosed]
      | false => simp [Traffic.step, sendFinal_of_unclosed hclosed, wake]
  | serve position =>
      cases hparty : t.ready[position]? with
      | none => simp [Traffic.step, serveAt_of_none hparty]
      | some party =>
          obtain ⟨others, _, hserved⟩ := serveAt_served hparty
          cases hserved with
          | withdrawn _ _ finished _ _ _ => exact ⟨_, finished.symm⟩
          | met _ _ _ finished _ _ _ => exact ⟨_, finished.symm⟩
          | turnedDown _ _ _ finished _ _ _ => exact ⟨_, finished.symm⟩
          | blocked _ _ _ finished _ _ _ => exact ⟨[], by simp [Traffic.step, finished]⟩

theorem finished_prefix_stepAll (t : Traffic ι ε) (steps : List (Step ι ε)) :
    t.finished <+: (t.stepAll steps).finished := by
  induction steps generalizing t with
  | nil => exact List.prefix_rfl
  | cons s steps ih => exact (finished_prefix_step t s).trans (ih (t.step s))

/-- Every entry is accounted for, and the buffer is no fuller than it may be. -/
structure Conserved (capacity : Nat) (t : Traffic ι ε) : Prop where
  entries : t.taken ++ t.stream.buffer = t.accepted
  holds : t.stream.capacity = capacity
  fits : t.stream.Fits

variable {capacity : Nat} {t : Traffic ι ε}

omit [BEq ι] in
theorem Conserved.serveAt (h : Conserved capacity t) (position : Nat) :
    Conserved capacity (t.serveAt position) := by
  cases hparty : t.ready[position]? with
  | none => rwa [serveAt_of_none hparty]
  | some party =>
      obtain ⟨others, _, hserved⟩ := serveAt_served hparty
      cases hserved with
      | withdrawn _ _ _ stream accepted taken =>
          exact ⟨by rw [taken, stream, accepted, h.entries], by rw [stream, h.holds],
            by rw [stream]; exact h.fits⟩
      | turnedDown _ _ _ _ stream accepted taken =>
          exact ⟨by rw [taken, stream, accepted, h.entries], by rw [stream, h.holds],
            by rw [stream]; exact h.fits⟩
      | met _ outlook _ _ stream accepted taken =>
          refine ⟨?_, by rw [stream, outlook.met_capacity, h.holds],
            by rw [stream]; exact outlook.met_fits h.fits⟩
          rw [taken, stream, accepted, List.append_assoc, outlook.met_buffer, ← List.append_assoc,
            h.entries]
      | blocked _ outlook _ _ stream accepted taken =>
          refine ⟨?_, by rw [stream, outlook.blocked_capacity, h.holds],
            by rw [stream]; exact outlook.blocked_fits h.fits⟩
          rw [taken, stream, accepted, List.append_assoc, outlook.blocked_buffer, h.entries]

theorem Conserved.step (h : Conserved capacity t) (s : Step ι ε) :
    Conserved capacity (t.step s) := by
  cases s with
  | start id ask => exact ⟨h.entries, h.holds, h.fits⟩
  | serve position => exact h.serveAt position
  | withdraw id => exact ⟨h.entries, h.holds, h.fits⟩
  | close =>
      cases hclosed : t.stream.closed with
      | true => simpa [Traffic.step, closeNow_of_closed hclosed] using h
      | false =>
          simp only [Traffic.step, closeNow_of_unclosed hclosed]
          exact ⟨h.entries, h.holds, ⟨by simp [wake], h.fits.bounded⟩⟩
  | sendFinal entry =>
      cases hclosed : t.stream.closed with
      | true => simpa [Traffic.step, sendFinal_of_closed hclosed] using h
      | false =>
          have hroom := h.fits.unclosed hclosed
          simp only [Traffic.step, sendFinal_of_unclosed hclosed]
          refine ⟨?_, h.holds, ⟨by simp [wake], ?_⟩⟩
          · simp [wake, push, ← h.entries]
          · simpa [wake, push] using hroom

theorem Conserved.stepAll (h : Conserved capacity t) (steps : List (Step ι ε)) :
    Conserved capacity (t.stepAll steps) := by
  induction steps generalizing t with
  | nil => exact h
  | cons s steps ih => exact ih (h.step s)

/-- However the parties on a stream get to look, what was removed and then what still lies there is
what was accepted, in the same order, and the buffer never outgrows the capacity by more than the
one entry that closes the stream. -/
theorem removed_append_buffer_eq_accepted {capacity : Int} {stream : Stream ε}
    (hstream : Stream.create capacity = .ok stream) (steps : List (Step ι ε)) :
    (onto stream).removedBy steps ++ ((onto stream).stepAll steps).stream.buffer =
        (onto stream).acceptedBy steps ∧
      (((onto stream).stepAll steps).stream.closed = false →
        (((onto stream).stepAll steps).stream.buffer.length : Int) ≤ capacity) ∧
      (((onto stream).stepAll steps).stream.buffer.length : Int) ≤ capacity + 1 := by
  obtain ⟨rfl, hcapacity⟩ := create_eq_ok hstream
  have hstart : Conserved capacity.toNat
      (onto ⟨capacity.toNat, [], false⟩ : Traffic ι ε) :=
    ⟨rfl, rfl, by constructor <;> simp [onto]⟩
  have hconserved := hstart.stepAll steps
  obtain ⟨haccepted, htaken⟩ :=
    stepAll_account (onto ⟨capacity.toNat, [], false⟩ : Traffic ι ε) steps
  have hbound := hconserved.fits.bounded
  rw [hconserved.holds] at hbound
  refine ⟨?_, fun hopen => ?_, by omega⟩
  · have hentries := hconserved.entries
    rw [haccepted, htaken] at hentries
    simpa [onto] using hentries
  · have hlength := hconserved.fits.unclosed hopen
    rw [hconserved.holds] at hlength
    omega

/-- A sender waits behind a full buffer, another one is withdrawn there, and a last entry is put on
the stream although it is full again. -/
theorem removed_append_buffer_when_crowded :
    ∃ steps : List (Step Nat Nat), Stream.create 1 = .ok (⟨1, [], false⟩ : Stream Nat) ∧
      (onto ⟨1, [], false⟩ : Traffic Nat Nat).removedBy steps = [10] ∧
      ((onto ⟨1, [], false⟩ : Traffic Nat Nat).stepAll steps).stream = ⟨1, [20, 30], true⟩ ∧
      [10] ++ [20, 30] = (onto ⟨1, [], false⟩ : Traffic Nat Nat).acceptedBy steps := by
  have hstream : Stream.create 1 = .ok (⟨1, [], false⟩ : Stream Nat) := rfl
  have haccount := removed_append_buffer_eq_accepted hstream
    ([.start 0 (.send 10), .serve 0, .start 1 (.send 20), .serve 0, .start 2 (.send 25), .serve 0,
      .withdraw 2, .serve 0, .start 3 .receive, .serve 0, .serve 0, .sendFinal 30] :
      List (Step Nat Nat))
  exact ⟨_, hstream, rfl, rfl, haccount.1⟩

end Traffic

end Vigil.Stream
