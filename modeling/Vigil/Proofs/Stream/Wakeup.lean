import Mathlib.Data.Prod.Lex
import Vigil.Proofs.Stream.Conservation

/-!
# No wake-up is lost

A party waits only while its request can neither be met nor turned down.  It is so when the party
goes to the end of the line, and whatever could end its wait puts it among those who are to look
again.  They may look as late as they like and in any order, and be withdrawn before they do: once
nobody is to look any more, everybody who is left has to wait.
-/

namespace Vigil.Stream

variable {ι ε : Type}

/-- The request can only wait: the stream is open, and it is full for a sender or empty for somebody
who receives. -/
def HoldsUp (s : Stream ε) : Ask ε → Prop
  | .send _ => s.closed = false ∧ s.capacity ≤ s.buffer.length
  | .close => False
  | _ => s.closed = false ∧ s.buffer = []

namespace HoldsUp

variable {s : Stream ε} {ask : Ask ε}

theorem unclosed (h : s.HoldsUp ask) : s.closed = false := by
  cases ask with
  | close => exact h.elim
  | _ => exact h.1

theorem full (h : s.HoldsUp ask) (hask : ask.sends = true) : s.capacity ≤ s.buffer.length := by
  cases ask with
  | send e => exact h.2
  | _ => cases hask

theorem empty (h : s.HoldsUp ask) (hask : ask.receives = true) : s.buffer = [] := by
  cases ask with
  | send e => cases hask
  | close => cases hask
  | _ => exact h.2

end HoldsUp

namespace Outlook

variable {s stream : Stream ε} {ask ask' : Ask ε} {taken : List ε}

/-- Whoever has to wait after a look waits for good reason. -/
theorem blocked_holdsUp (h : Outlook s ask (.blocked stream ask' taken)) : stream.HoldsUp ask' := by
  cases h with
  | sendBlocked unclosed full => exact ⟨unclosed, full⟩
  | receiveBlocked unclosed empty => exact ⟨unclosed, empty⟩
  | collectBlocked unclosed => exact ⟨unclosed, rfl⟩
  | lastBlocked unclosed => exact ⟨unclosed, rfl⟩

end Outlook

namespace Traffic

/-- Everybody who waits has to. -/
def Watchful (t : Traffic ι ε) : Prop := ∀ party ∈ t.waiting, t.stream.HoldsUp party.ask

namespace Watchful

variable {t : Traffic ι ε}

/-- Who was woken waits no longer. -/
theorem wake (t : Traffic ι ε) : Watchful t.wake :=
  fun _ hparty => absurd hparty List.not_mem_nil

theorem enqueue (h : Watchful t) {party : Party ι ε} (hparty : t.stream.HoldsUp party.ask) :
    Watchful (t.enqueue party) := by
  intro other hother
  rcases List.mem_append.mp hother with hother | hother
  · exact h other hother
  · rwa [List.mem_singleton.mp hother]

theorem serve (h : Watchful t) (party : Party ι ε) : Watchful (t.serve party) := by
  rw [Traffic.serve]
  split_ifs with hwithdrawn
  · exact h
  · split
    · exact wake _
    · exact h
    · rename_i stream ask taken hlook
      have houtlook := outlook t.stream party.ask
      rw [hlook] at houtlook
      have hheld := houtlook.blocked_holdsUp
      -- the others are woken if something was taken; if nothing was, they still have to wait
      rcases look_blocked hlook with ⟨rfl, rfl⟩ | ⟨htaken, _⟩
      · exact enqueue (fun other hother => h other hother) hheld
      · simp only [List.isEmpty_iff, htaken, if_false]
        exact enqueue (wake _) hheld

theorem serveAt (h : Watchful t) (position : Nat) : Watchful (t.serveAt position) := by
  rw [Traffic.serveAt]
  split
  · exact h
  · rename_i party _
    exact serve (t := { t with ready := t.ready.eraseIdx position }) h party

variable [BEq ι]

theorem step (h : Watchful t) (s : Step ι ε) : Watchful (t.step s) := by
  cases s with
  | start id ask => exact fun party hparty => h party hparty
  | serve position => exact h.serveAt position
  | withdraw id =>
      intro party hparty
      simp only [Traffic.step, withdraw, List.partition_eq_filter_filter] at hparty
      exact h party (List.mem_filter.mp hparty).1
  | close =>
      cases hclosed : t.stream.closed with
      | true => simpa only [Traffic.step, closeNow_of_closed hclosed] using h
      | false =>
          simp only [Traffic.step, closeNow_of_unclosed hclosed]
          exact wake _
  | sendFinal entry =>
      cases hclosed : t.stream.closed with
      | true => simpa only [Traffic.step, sendFinal_of_closed hclosed] using h
      | false =>
          simp only [Traffic.step, sendFinal_of_unclosed hclosed]
          exact wake _

theorem stepAll (h : Watchful t) (steps : List (Step ι ε)) : Watchful (t.stepAll steps) := by
  induction steps generalizing t with
  | nil => exact h
  | cons s steps ih => exact ih (h.step s)

end Watchful

/-! ### Looking comes to an end -/

/-- What looking uses up: first the parties, then the entries on the stream, then the looks that are
to come. -/
def toil (t : Traffic ι ε) : ℕ ×ₗ ℕ ×ₗ ℕ :=
  toLex (t.parties.length, toLex (t.stream.buffer.length, t.ready.length))

theorem toil_lt_of_parties {t t' : Traffic ι ε} (h : t'.parties.length < t.parties.length) :
    t'.toil < t.toil :=
  Prod.Lex.toLex_lt_toLex.mpr (.inl h)

theorem toil_lt_of_buffer {t t' : Traffic ι ε} (hparties : t'.parties.length = t.parties.length)
    (h : t'.stream.buffer.length < t.stream.buffer.length) : t'.toil < t.toil :=
  Prod.Lex.toLex_lt_toLex.mpr (.inr ⟨hparties, Prod.Lex.toLex_lt_toLex.mpr (.inl h)⟩)

theorem toil_lt_of_ready {t t' : Traffic ι ε} (hparties : t'.parties.length = t.parties.length)
    (hbuffer : t'.stream.buffer.length = t.stream.buffer.length)
    (h : t'.ready.length < t.ready.length) : t'.toil < t.toil :=
  Prod.Lex.toLex_lt_toLex.mpr
    (.inr ⟨hparties, Prod.Lex.toLex_lt_toLex.mpr (.inr ⟨hbuffer, h⟩)⟩)

theorem length_parties (t : Traffic ι ε) :
    t.parties.length = t.waiting.length + t.ready.length :=
  List.length_append

/-- Every look uses something up: it ends a request, takes entries off the stream, or sends a party
to wait. -/
theorem toil_serveAt_lt (t : Traffic ι ε) {position : Nat} (hposition : position < t.ready.length) :
    (t.serveAt position).toil < t.toil := by
  have herased : (t.ready.eraseIdx position).length + 1 = t.ready.length :=
    List.length_eraseIdx_add_one hposition
  simp only [serveAt, List.getElem?_eq_getElem hposition, serve]
  split_ifs with hwithdrawn
  · refine toil_lt_of_parties ?_
    simp only [length_parties, finish]
    omega
  · split
    · refine toil_lt_of_parties ?_
      simp only [length_parties, finish, wake, List.length_append, List.length_nil]
      omega
    · refine toil_lt_of_parties ?_
      simp only [length_parties, finish]
      omega
    · rename_i stream ask taken hlook
      rcases look_blocked hlook with ⟨rfl, rfl⟩ | ⟨htaken, hshorter⟩
      · refine toil_lt_of_ready ?_ rfl ?_
        · simp only [length_parties, enqueue, List.isEmpty_nil, if_true, List.length_append,
            List.length_singleton]
          omega
        · simp only [enqueue, List.isEmpty_nil, if_true]
          omega
      · simp only [List.isEmpty_iff, htaken, if_false]
        refine toil_lt_of_buffer ?_ hshorter
        simp only [length_parties, enqueue, wake, List.length_append, List.length_singleton,
          List.length_nil]
        omega

/-- In whatever order the parties look, nobody is to look any more after finitely many looks. -/
theorem wellFounded_looks :
    WellFounded fun t' t : Traffic ι ε => ∃ position < t.ready.length, t' = t.serveAt position := by
  refine Subrelation.wf ?_ (InvImage.wf toil wellFounded_lt)
  rintro t' t ⟨position, hposition, rfl⟩
  exact toil_serveAt_lt t hposition

/-! ### Who is left waiting -/

/-- Who may be left on a stream when nobody is to look any more. -/
structure AtRest (capacity : Int) (t : Traffic ι ε) : Prop where
  senders : ∀ party ∈ t.parties, party.ask.sends = true →
    t.stream.closed = false ∧ (t.stream.buffer.length : Int) = capacity
  receivers : ∀ party ∈ t.parties, party.ask.receives = true →
    t.stream.closed = false ∧ t.stream.buffer = []
  /-- Senders and receivers do not wait for each other. -/
  apart : ∀ sender ∈ t.parties, ∀ receiver ∈ t.parties, sender.ask.sends = true →
    receiver.ask.receives = false
  closers : ∀ party ∈ t.parties, party.ask ≠ .close
  closed : t.stream.closed = true → t.parties = []

theorem AtRest.of_watchful {capacity : Int} {t : Traffic ι ε} (hcapacity : 1 ≤ capacity)
    (hwatchful : Watchful t) (hfits : t.stream.Fits) (hholds : t.stream.capacity = capacity.toNat)
    (hsettled : t.isSettled = true) : AtRest capacity t := by
  have hparties : t.parties = t.waiting := by
    rw [parties, List.isEmpty_iff.mp hsettled, List.append_nil]
  have hheld : ∀ party ∈ t.parties, t.stream.HoldsUp party.ask := by
    rw [hparties]
    exact hwatchful
  have hsenders : ∀ party ∈ t.parties, party.ask.sends = true →
      t.stream.closed = false ∧ (t.stream.buffer.length : Int) = capacity := by
    intro party hparty hsends
    have hopen := (hheld party hparty).unclosed
    have hfull := (hheld party hparty).full hsends
    have hroom := hfits.unclosed hopen
    exact ⟨hopen, by omega⟩
  have hreceivers : ∀ party ∈ t.parties, party.ask.receives = true →
      t.stream.closed = false ∧ t.stream.buffer = [] := fun party hparty hreceives =>
    ⟨(hheld party hparty).unclosed, (hheld party hparty).empty hreceives⟩
  refine ⟨hsenders, hreceivers, ?_, ?_, ?_⟩
  · intro sender hsender receiver hreceiver hsends
    by_contra hreceives
    have hfull := (hsenders sender hsender hsends).2
    have hempty := (hreceivers receiver hreceiver (by simpa using hreceives)).2
    rw [hempty, List.length_nil] at hfull
    omega
  · intro party hparty hclose
    have hheldUp := hheld party hparty
    rw [hclose] at hheldUp
    exact hheldUp
  · intro hclosed
    apply List.eq_nil_iff_forall_not_mem.mpr
    intro party hparty
    have hopen := (hheld party hparty).unclosed
    rw [hclosed] at hopen
    cases hopen

variable [BEq ι]

/-- Whatever happens on a stream, the parties that are to look do so sooner or later, and then a
sender is left only at a full open stream, a receiver only at an empty open one, and nobody at a
closed one. -/
theorem atRest_of_settled {capacity : Int} {stream : Stream ε}
    (hstream : Stream.create capacity = .ok stream) (steps : List (Step ι ε)) :
    (WellFounded fun t' t : Traffic ι ε =>
        ∃ position < t.ready.length, t' = t.serveAt position) ∧
      (((onto stream).stepAll steps).isSettled = true →
        AtRest capacity ((onto stream).stepAll steps)) := by
  obtain ⟨rfl, hcapacity⟩ := create_eq_ok hstream
  refine ⟨wellFounded_looks, fun hsettled => ?_⟩
  have hstart : Conserved capacity.toNat (onto ⟨capacity.toNat, [], false⟩ : Traffic ι ε) :=
    ⟨rfl, rfl, by constructor <;> simp [onto]⟩
  have hconserved := hstart.stepAll steps
  have hwatchful : Watchful (onto ⟨capacity.toNat, [], false⟩ : Traffic ι ε) :=
    fun _ hparty => absurd hparty List.not_mem_nil
  exact .of_watchful hcapacity (hwatchful.stepAll steps) hconserved.fits hconserved.holds hsettled

/-- A sender that was woken finds the room gone again, waits once more, and is right to. -/
theorem atRest_of_overtaken :
    ∃ steps : List (Step Nat Nat), Stream.create 1 = .ok (⟨1, [], false⟩ : Stream Nat) ∧
      ((onto ⟨1, [], false⟩ : Traffic Nat Nat).stepAll steps).isSettled = true ∧
      ((onto ⟨1, [], false⟩ : Traffic Nat Nat).stepAll steps).parties =
        [⟨1, .send 20, false⟩] ∧
      ((onto ⟨1, [], false⟩ : Traffic Nat Nat).stepAll steps).stream = ⟨1, [30], false⟩ ∧
      AtRest 1 ((onto ⟨1, [], false⟩ : Traffic Nat Nat).stepAll steps) := by
  have hstream : Stream.create 1 = .ok (⟨1, [], false⟩ : Stream Nat) := rfl
  have hrest := atRest_of_settled hstream
    ([.start 0 (.send 10), .serve 0, .start 1 (.send 20), .serve 0, .start 2 .receive,
      .start 3 (.send 30), .serve 0, .serve 0, .serve 0] : List (Step Nat Nat))
  exact ⟨_, hstream, rfl, rfl, rfl, hrest.2 rfl⟩

end Traffic

end Vigil.Stream
